import Mathlib
import GraphLowering.Rule.Table
import GraphLowering.Proofs.SourceGraph
import GraphLowering.Proofs.WindowAxes

/-!
# How window ops are lowered

A convolution and a pooling op are lowered in the same way. The node asks for a window of some extent
that moves by some strides, its policy pads both spatial axes, and the op that results is laid
between two changes of format. What differs is how the extent of the window is found, and whether
there are filters.

* `Context.Lists`, `Context.Dilates` — the numbers that a node lists for the spatial axes.
* `pool_eq_ok`, `convolve_eq_ok` — what the rules read before they append the op.
* `WindowRequest`, `Requests` — what a node asks for.
* `WindowOperands` — the operands of a window op.
* `LoweredWindow`, `LowersWindow` — a window op that has been laid between two changes of format.
* `Requests.of_rule`, `Requests.planeRun`, `Requests.run` — a rule succeeds where a node asks for
  something that its policy can run, and then it lowers that.
-/

namespace GraphLowering

open Target

/-! ### The types of window ops -/

/-- The pooling op of a window on padded axes. -/
def poolOp (average : Bool) (window strides : List Nat) (padding : Padding) : Op :=
  if average then .avgPool ⟨window, strides, padding.below, padding.above⟩ false
  else .maxPool ⟨window, strides, padding.below, padding.above⟩

/-- The convolution of padded axes. -/
def convolutionOp (strides dilations : List Nat) (padding : Padding) : Op :=
  .convolution ⟨strides, dilations, padding.below, padding.above⟩

/-- An image with another number of channels and other sizes along the spatial axes. -/
def ImageType.resized (image : ImageType) (count : Nat) (plane : Plane) : ImageType :=
  { image with channels := count, plane := plane }

/-- The type that the positions of a window give to the result of a window op with `count`
channels. -/
def windowType (op : String) (image : ImageType) (count : Nat)
    (extent stride below above : Plane) : Except Error TensorType := do
  let sizes ← windowOutputs op image.plane extent stride below above
  return ⟨image.element, image.batch :: count :: sizes⟩

variable {image : ImageType}

def poolName (average : Bool) : String := if average then "AvgPool" else "MaxPool"

theorem infer_pool {g : Graph} {x : Wire} (hx : g.type? x = some (image.inFormat .channelsFirst))
    (average : Bool) (window stride below above : Plane) :
    g.infer (poolOp average window.toList stride.toList ⟨below.toList, above.toList⟩) [x] =
      windowType (poolName average) image image.channels window stride below above := by
  rw [Graph.infer_of_types (Graph.types_one hx), windowType, ← poolSizes_plane]
  cases average <;> rfl

theorem infer_convolution {g : Graph} {x f : Wire} {kernel : Plane} {count : Nat}
    (hx : g.type? x = some (image.inFormat .channelsFirst))
    (hf : g.type? f =
      some ⟨image.element, [count, image.channels, kernel.vertical, kernel.horizontal]⟩)
    (dilations stride below above : Plane) :
    g.infer (convolutionOp stride.toList dilations.toList ⟨below.toList, above.toList⟩) [x, f] =
      windowType "Convolution" image count (kernel.dilated dilations) stride below above := by
  rw [Graph.infer_of_types (Graph.types_two hx hf), windowType, ← convolutionSizes_plane]
  simp only [convolutionOp, Op.infer, twoOperands, except_ok_bind, inferConvolution,
    ImageType.inFormat, DataFormat.arrange, spatialParts]
  rw [if_neg (by simp), if_neg (by simp)]
  rfl

/-- A convolution fits filters only if they have as many channels as the image and the same
elements. -/
theorem filters_of_infer {w : ConvolutionWindow} {filters type : TensorType}
    {count depth : Nat} {kernel : List Nat} (hshape : filters.shape = count :: depth :: kernel)
    (h : (Op.convolution w).infer [image.inFormat .channelsFirst, filters] = .ok type) :
    depth = image.channels ∧ filters.element = image.element := by
  simp only [Op.infer, twoOperands, except_ok_bind, inferConvolution, ImageType.inFormat,
    DataFormat.arrange, spatialParts, hshape] at h
  split at h
  case isTrue => cases h
  case isFalse hdepth =>
    rw [not_or, not_not, not_not] at hdepth
    split at h
    case isTrue => cases h
    case isFalse helement => exact ⟨hdepth.2, (not_not.mp helement).symm⟩

/-! ### What a node asks for -/

/-- A node lists a number for each spatial axis, both positive, at the places that its format
has for them; at the places of the batch and of the channels stands anything. -/
def Context.Lists (ctx : Context) (key : String) (format : DataFormat) (plane : Plane) : Prop :=
  plane.Positive ∧ ∃ batch channel : Int, (ctx.node.attr? key).bind Attribute.ints? =
    some (format.arrange batch channel plane.vertical plane.horizontal)

/-- The dilations of a node; without the attribute, the elements of a filter lie next to each
other. -/
def Context.Dilates (ctx : Context) (format : DataFormat) (dilations : Plane) : Prop :=
  ctx.Lists "dilations" format dilations ∨
    ctx.node.attr? "dilations" = none ∧ dilations = ⟨1, 1⟩

theorem spatialEntries_of_lists {ctx : Context} {key : String} {format : DataFormat}
    {plane : Plane} (h : ctx.Lists key format plane) :
    spatialEntries ctx key format = .ok plane.toList := by
  obtain ⟨⟨hvertical, hhorizontal⟩, batch, channel, hattr⟩ := h
  rw [spatialEntries, Source.Node.ints, Source.Node.attrOfKind_eq_ok.mpr hattr,
    except_ok_bind]
  cases format <;>
    simp [DataFormat.arrange, DataFormat.spatialAxes, entryAt, Plane.toList, except_ok_bind,
      hvertical.ne', hhorizontal.ne']

theorem positive_of_entry {values : List Int} {axis n : Nat} {e : Error} {v : Int}
    (hv : values[axis]? = some v)
    (h : (do
      let value ← entryAt values axis
      if value ≤ 0 then
        throw e
      return value.toNat) = .ok n) : 0 < n ∧ v = n := by
  rw [entryAt_eq_ok hv, except_ok_bind] at h
  split at h
  case isTrue => cases h
  case isFalse hpositive =>
    obtain rfl := Except.ok.inj h
    omega

theorem lists_of_spatialEntries {ctx : Context} {key : String} {format : DataFormat}
    {entries : List Nat} (h : spatialEntries ctx key format = .ok entries) :
    ∃ plane : Plane, entries = plane.toList ∧ ctx.Lists key format plane := by
  obtain ⟨values, hints, h⟩ := except_bind_eq_ok.mp h
  have hattr := Source.Node.attrOfKind_eq_ok.mp hints
  split at h
  case isTrue => cases h
  case isFalse hlength =>
    obtain ⟨a, b, c, d, rfl⟩ := List.length_eq_four.mp (not_not.mp hlength)
    cases format with
    | channelsLast =>
      have hentries : List.Forall₂ _ [1, 2] entries := except_mapM_eq_ok.mp h
      obtain _ | ⟨hrow, _ | ⟨hcolumn, _ | _⟩⟩ := hentries
      obtain ⟨hvertical, rfl⟩ := positive_of_entry rfl hrow
      obtain ⟨hhorizontal, rfl⟩ := positive_of_entry rfl hcolumn
      exact ⟨⟨_, _⟩, rfl, ⟨hvertical, hhorizontal⟩, a, d, hattr⟩
    | channelsFirst =>
      have hentries : List.Forall₂ _ [2, 3] entries := except_mapM_eq_ok.mp h
      obtain _ | ⟨hrow, _ | ⟨hcolumn, _ | _⟩⟩ := hentries
      obtain ⟨hvertical, rfl⟩ := positive_of_entry rfl hrow
      obtain ⟨hhorizontal, rfl⟩ := positive_of_entry rfl hcolumn
      exact ⟨⟨_, _⟩, rfl, ⟨hvertical, hhorizontal⟩, a, b, hattr⟩

/-- How a convolution reads its dilations. -/
def windowDilations (ctx : Context) (format : DataFormat) : Except Error (List Nat) :=
  if (ctx.node.attr? "dilations").isSome then spatialEntries ctx "dilations" format
  else .ok [1, 1]

theorem windowDilations_of_dilates {ctx : Context} {format : DataFormat} {dilations : Plane}
    (h : ctx.Dilates format dilations) :
    windowDilations ctx format = .ok dilations.toList := by
  obtain h | ⟨hnone, rfl⟩ := h
  · have hsome : (ctx.node.attr? "dilations").isSome := by
      obtain ⟨-, batch, channel, hattr⟩ := h
      obtain ⟨attr, hattr, -⟩ := Option.bind_eq_some_iff.mp hattr
      rw [hattr, Option.isSome_some]
    rw [windowDilations, if_pos hsome, spatialEntries_of_lists h]
  · rw [windowDilations, hnone]
    rfl

theorem dilates_of_windowDilations {ctx : Context} {format : DataFormat} {entries : List Nat}
    (h : windowDilations ctx format = .ok entries) :
    ∃ dilations : Plane, entries = dilations.toList ∧ ctx.Dilates format dilations := by
  unfold windowDilations at h
  split at h
  case isTrue =>
    obtain ⟨dilations, rfl, hlists⟩ := lists_of_spatialEntries h
    exact ⟨dilations, rfl, .inl hlists⟩
  case isFalse hnone =>
    exact ⟨⟨1, 1⟩, (Except.ok.inj h).symm, .inr ⟨by simpa using hnone, rfl⟩⟩

/-! ### Runs of the rules -/

section Rules

variable {ctx : Context} {format : DataFormat} {g h : Graph} {x : Wire} {outputs : Outputs}

theorem Context.needInputs_eq_ok {count : Nat} {u : Unit} :
    ctx.needInputs count = .ok u ↔ ctx.node.inputs = count := by
  unfold Context.needInputs
  split <;> simp_all

/-- A rule with the right number of inputs goes on. -/
theorem Context.needInputs_run {count : Nat} (hinputs : ctx.node.inputs = count)
    {next : Unit → Emit Outputs} :
    ((liftM (ctx.needInputs count) : Emit Unit) >>= next) g = next () g :=
  Step.lift_bind_of_ok (Context.needInputs_eq_ok.mpr hinputs)

theorem Context.output_iff {w : Wire} :
    ctx.output w = .ok outputs ↔ 0 < ctx.node.outputs ∧
      outputs = some w :: List.replicate (ctx.node.outputs - 1) none := by
  unfold Context.output Context.setOutput Context.noOutputs
  rw [List.length_replicate]
  cases ctx.node.outputs with
  | zero => simp
  | succ count => simp [List.replicate_succ, eq_comm]

/-- A rule ends by filling its first output slot. -/
theorem Context.output_run (hslots : 0 < ctx.node.outputs) (w : Wire) (g : Graph) :
    (liftM (ctx.output w) : Emit Outputs) g =
      .ok (some w :: List.replicate (ctx.node.outputs - 1) none) g :=
  Step.lift_eq_ok.mpr ⟨Context.output_iff.mpr ⟨hslots, rfl⟩, rfl⟩

theorem needRank_eq_ok {type : TensorType} {what : String} {rank : Nat} {u : Unit}
    (hx : g.type? x = some type) :
    needRank ctx what x rank g = .ok u h ↔ type.shape.length = rank ∧ h = g := by
  rw [needRank, Step.bind_of_ok (shapeOf_of_type? hx)]
  by_cases hrank : type.shape.length = rank
  · rw [if_neg (not_not.mpr hrank)]
    show EStateM.Result.ok () g = .ok u h ↔ _
    simp [hrank, eq_comm]
  · rw [if_pos hrank]
    show EStateM.Result.error _ g = .ok u h ↔ _
    simp [hrank]

theorem spatialSizes_run (hx : g.type? x = some (image.inFormat .channelsFirst)) :
    spatialSizes x g = .ok image.plane.toList g := by
  rw [spatialSizes, Step.bind_of_ok (shapeOf_of_type? hx)]
  rfl

/-- The last part of a window rule: with its padding, the op is appended and its result is brought
back to the format of the node. -/
def paddedWindow (ctx : Context) (format : DataFormat) (padding : Except Error Padding)
    (op : Padding → Op) (ws : List Wire) : Emit Outputs := do
  let padding ← padding
  let result ← emit (op padding) ws
  ctx.output (← ofChannelsFirst ctx result format)

/-- A pooling rule brings its image to the front and goes on from there, if all attributes can be
read. -/
theorem pool_eq_ok (average : Bool) (hformat : DataFormat.of ctx = .ok format)
    (hx : g.type? x = some (image.inFormat format)) :
    ∃ data g₁, Relaid g x image format .channelsFirst data g₁ ∧ ∀ outputs h,
      Rule.pool average ctx [x] g = .ok outputs h ↔
        ctx.node.inputs = 1 ∧
        ∃ window, spatialEntries ctx "ksize" format = .ok window ∧
        ∃ strides, spatialEntries ctx "strides" format = .ok strides ∧
        ∃ policy, paddingPolicy ctx = .ok policy ∧
          paddedWindow ctx format (Padding.make policy image.plane.toList window strides)
            (poolOp average window strides) [data] g₁ = .ok outputs h := by
  obtain ⟨data, g₁, hmove, hdata⟩ := toChannelsFirst_run ctx format hx
  refine ⟨data, g₁, hdata, fun outputs h => ?_⟩
  have hrank : (image.inFormat format).shape.length = 4 := DataFormat.length_arrange ..
  simp only [Rule.pool, paddedWindow, poolOp, Step.bind_eq_ok, Step.lift_eq_ok,
    Context.needInputs_eq_ok, hformat, entryAt_cons_zero, needRank_eq_ok hx, hrank, hmove,
    spatialSizes_run (hdata.type? hx), Except.ok.injEq, EStateM.Result.ok.injEq, exists_const,
    exists_and_left, exists_eq_left', exists_eq_left, and_assoc, true_and]

theorem convolve_rank {f : Wire} {filter : TensorType} (hf : g.type? f = some filter)
    (hx : g.type? x = some (image.inFormat format))
    (hrun : Rule.convolve ctx [x, f] g = .ok outputs h) : filter.shape.length = 4 := by
  obtain ⟨_, -, hread⟩ := Step.lift_bind_eq_ok.mp hrun
  obtain ⟨_, -, hread⟩ := Step.lift_bind_eq_ok.mp hread
  obtain ⟨_, hdata, hread⟩ := Step.lift_bind_eq_ok.mp hread
  obtain ⟨_, hfilters, hneed⟩ := Step.lift_bind_eq_ok.mp hread
  cases hdata
  cases hfilters
  obtain ⟨_, _, hkept, hneed'⟩ := Step.bind_eq_ok.mp hneed
  obtain ⟨-, rfl⟩ := (needRank_eq_ok hx).mp hkept
  obtain ⟨_, _, hrank, -⟩ := Step.bind_eq_ok.mp hneed'
  exact ((needRank_eq_ok hf).mp hrank).1

/-- The arena in which the spatial axes of the filters have been brought to the end. -/
def movedFilters (g : Graph) (f : Wire) (element : ElementType) (kernel : Plane)
    (depth count : Nat) : Graph :=
  g.push (.reshape [3, 2, 0, 1] [count, depth, kernel.vertical, kernel.horizontal]) [f]
    ⟨element, [count, depth, kernel.vertical, kernel.horizontal]⟩

theorem transposed_filters (ctx : Context) {f : Wire} {element : ElementType} {kernel : Plane}
    {depth count : Nat}
    (hf : g.type? f = some ⟨element, [kernel.vertical, kernel.horizontal, depth, count]⟩) :
    transposed ctx f [3, 2, 0, 1] g =
      .ok g.size (movedFilters g f element kernel depth count) := by
  have horder : isPermutation [3, 2, 0, 1] 4 = true := by decide
  exact transposed_run ctx hf horder

theorem type?_movedFilters (g : Graph) (f : Wire) (element : ElementType) (kernel : Plane)
    (depth count : Nat) :
    (movedFilters g f element kernel depth count).type? g.size =
      some ⟨element, [count, depth, kernel.vertical, kernel.horizontal]⟩ :=
  g.type?_push_self _ _ _

theorem spatialSizes_movedFilters (g : Graph) (f : Wire) (element : ElementType) (kernel : Plane)
    (depth count : Nat) :
    spatialSizes g.size (movedFilters g f element kernel depth count) =
      .ok kernel.toList (movedFilters g f element kernel depth count) := by
  rw [spatialSizes, Step.bind_of_ok (shapeOf_of_type? (type?_movedFilters ..))]
  rfl

/-- A convolution brings its image and its filters to the front and goes on from there, if all
attributes can be read. -/
theorem convolve_eq_ok {f : Wire} {element : ElementType} {kernel : Plane} {depth count : Nat}
    (hformat : DataFormat.of ctx = .ok format) (hx : g.type? x = some (image.inFormat format))
    (hf : g.type? f = some ⟨element, [kernel.vertical, kernel.horizontal, depth, count]⟩) :
    ∃ data g₁, Relaid g x image format .channelsFirst data g₁ ∧
      (movedFilters g₁ f element kernel depth count).type? data =
        some (image.inFormat .channelsFirst) ∧ ∀ outputs h,
      Rule.convolve ctx [x, f] g = .ok outputs h ↔
        ctx.node.inputs = 2 ∧
        ∃ strides, spatialEntries ctx "strides" format = .ok strides ∧
        ∃ dilations, windowDilations ctx format = .ok dilations ∧
        ∃ policy, paddingPolicy ctx = .ok policy ∧
          paddedWindow ctx format
            (Padding.makeDilated policy image.plane.toList kernel.toList strides dilations)
            (convolutionOp strides dilations) [data, g₁.size]
            (movedFilters g₁ f element kernel depth count) = .ok outputs h := by
  obtain ⟨data, g₁, hmove, hdata⟩ := toChannelsFirst_run ctx format hx
  have hmove' := transposed_filters ctx (Graph.type?_mono hdata.le hf)
  have hdata' : (movedFilters g₁ f element kernel depth count).type? data =
      some (image.inFormat .channelsFirst) :=
    Graph.type?_mono (g₁.le_push _ _ _) (hdata.type? hx)
  refine ⟨data, g₁, hdata, hdata', fun outputs h => ?_⟩
  have hrank : (image.inFormat format).shape.length = 4 := DataFormat.length_arrange ..
  have hsecond : entryAt [x, f] 1 = .ok f := rfl
  have hpure : ∀ a, (pure a : Emit (List Nat)) g = .ok a g := fun _ => rfl
  cases hattr : (ctx.node.attr? "dilations").isSome <;>
    simp only [Rule.convolve, paddedWindow, convolutionOp, windowDilations, hattr, if_true,
      Bool.false_eq_true, if_false, Step.bind_eq_ok, Step.lift_eq_ok, Context.needInputs_eq_ok,
      hformat, entryAt_cons_zero, hsecond, needRank_eq_ok hx, needRank_eq_ok hf, hrank,
      List.length_cons, List.length_nil, hpure, hmove, hmove', spatialSizes_movedFilters,
      spatialSizes_run hdata', Except.ok.injEq, EStateM.Result.ok.injEq, exists_const,
      exists_and_left, exists_eq_left', exists_eq_left, and_assoc, true_and]

end Rules

section Padded

variable {ctx : Context} {format : DataFormat} {policy : PaddingPolicy} {g h : Graph}
  {outputs : Outputs} {op : Padding → Op} {ws : List Wire} {name : String} {count : Nat}
  {extent stride : Plane}

/-- A window that the policy can run is appended, and its result is brought back to the format. -/
theorem paddedWindow_run {below above positions : Plane} (hstride : stride.Positive)
    (hextent : extent.Positive)
    (hinfer : g.infer (op ⟨below.toList, above.toList⟩) ws =
      windowType name image count extent stride below above)
    (hslots : 0 < ctx.node.outputs)
    (hrun : PlaneRun policy image.plane extent stride below above positions) :
    ∃ z h, paddedWindow ctx format
        (Padding.make policy image.plane.toList extent.toList stride.toList) op ws g =
          .ok (some z :: List.replicate (ctx.node.outputs - 1) none) h ∧
      Relaid
        (g.push (op ⟨below.toList, above.toList⟩) ws
          ((image.resized count positions).inFormat .channelsFirst))
        g.size (image.resized count positions) .channelsFirst format z h := by
  have hpadding : Padding.make policy image.plane.toList extent.toList stride.toList =
      .ok ⟨below.toList, above.toList⟩ :=
    (paddingMake_eq_ok hstride).mpr
      ⟨below, above, rfl, hrun.vertical.padding, hrun.horizontal.padding⟩
  have htype : g.infer (op ⟨below.toList, above.toList⟩) ws =
      .ok ((image.resized count positions).inFormat .channelsFirst) := by
    rw [hinfer, windowType, (windowOutputs_eq_ok hstride hextent hrun.vertical.padding
      hrun.horizontal.padding).mpr ⟨positions, rfl, hrun⟩]
    rfl
  have hresult := g.type?_push_self (op ⟨below.toList, above.toList⟩) ws
    ((image.resized count positions).inFormat .channelsFirst)
  obtain ⟨z, h, hmove, hz⟩ := ofChannelsFirst_run ctx format hresult
  refine ⟨z, h, ?_, hz⟩
  rw [paddedWindow, hpadding, Step.lift_bind_eq_ok]
  refine ⟨_, rfl, ?_⟩
  rw [Step.bind_of_ok (emit_of_infer htype), Step.bind_of_ok hmove]
  exact Context.output_run hslots _ _

theorem infer_of_paddedWindow {padding : Except Error Padding}
    (hrun : paddedWindow ctx format padding op ws g = .ok outputs h) :
    ∃ padding type, g.infer (op padding) ws = .ok type := by
  obtain ⟨padding, -, hrun⟩ := Step.lift_bind_eq_ok.mp hrun
  obtain ⟨result, g', hemit, -⟩ := Step.bind_eq_ok.mp hrun
  exact ⟨padding, exists_infer_of_emit hemit⟩

theorem planeRun_of_paddedWindow (hstride : stride.Positive) (hextent : extent.Positive)
    (hinfer : ∀ below above : Plane, g.infer (op ⟨below.toList, above.toList⟩) ws =
      windowType name image count extent stride below above)
    (hrun : paddedWindow ctx format
      (Padding.make policy image.plane.toList extent.toList stride.toList) op ws g =
        .ok outputs h) :
    0 < ctx.node.outputs ∧
      ∃ below above positions, PlaneRun policy image.plane extent stride below above positions := by
  obtain ⟨padding, hpadding, hrun⟩ := Step.lift_bind_eq_ok.mp hrun
  obtain ⟨below, above, rfl, hvertical, hhorizontal⟩ := (paddingMake_eq_ok hstride).mp hpadding
  obtain ⟨result, g', hemit, hrun⟩ := Step.bind_eq_ok.mp hrun
  obtain ⟨z, _, -, hrun⟩ := Step.bind_eq_ok.mp hrun
  refine ⟨(Context.output_iff.mp (Step.lift_eq_ok.mp hrun).1).1, below, above, ?_⟩
  obtain ⟨type, htype⟩ := exists_infer_of_emit hemit
  rw [hinfer] at htype
  obtain ⟨sizes, hsizes, -⟩ := except_bind_eq_ok.mp htype
  obtain ⟨positions, -, hpositions⟩ :=
    (windowOutputs_eq_ok hstride hextent hvertical hhorizontal).mp hsizes
  exact ⟨positions, hpositions⟩

end Padded

/-! ### Window ops -/

/-- What a node asks for: a window that moves by some strides over the spatial axes, the number of
channels of the result, and the op that does it once the padding is known. -/
structure WindowRequest where
  extent : Plane
  stride : Plane
  count : Nat
  op : Padding → Op

/-- What a node asks for on an image, and on filters if it takes them. A pooling op keeps the
channels, and its window is an attribute. A convolution has as many channels as there are filters,
each of which has the channels and the elements of the image; its window is what the filters extend
over with their elements laid apart. -/
inductive Requests (ctx : Context) (format : DataFormat) (image : ImageType) :
    OpKind → Option TensorType → WindowRequest → Prop
  | pool {average : Bool} {window stride : Plane} (inputs : ctx.node.inputs = 1)
    (hwindow : ctx.Lists "ksize" format window) (hstride : ctx.Lists "strides" format stride) :
    Requests ctx format image (.pool average) none
      ⟨window, stride, image.channels, poolOp average window.toList stride.toList⟩
  | convolve {kernel stride dilations : Plane} {count : Nat} (inputs : ctx.node.inputs = 2)
    (hstride : ctx.Lists "strides" format stride)
    (hdilations : ctx.Dilates format dilations) :
    Requests ctx format image .convolve
      (some ⟨image.element, [kernel.vertical, kernel.horizontal, image.channels, count]⟩)
      ⟨kernel.dilated dilations, stride, count, convolutionOp stride.toList dilations.toList⟩

/-- The operands of a window op: an image in the format of the node, and filters for a
convolution. -/
inductive WindowOperands (g : Graph) (format : DataFormat) (image : ImageType) :
    OpKind → Option TensorType → List Wire → Prop
  | pool {average : Bool} {x : Wire} (hx : g.type? x = some (image.inFormat format)) :
    WindowOperands g format image (.pool average) none [x]
  | convolve {x f : Wire} {filter : TensorType} (hx : g.type? x = some (image.inFormat format))
    (hf : g.type? f = some filter) :
    WindowOperands g format image .convolve (some filter) [x, f]

/-- A window op that has been lowered: it reads the image of wire `x` with the channels first, and
wire `y` holds its result in the format of the node. Elements keep their batch, channel, row and
column on both ways. -/
structure LoweredWindow (h : Graph) (format : DataFormat) (image result : ImageType) (op : Op)
    (x y : Wire) (data window : Wire) : Prop where
  node : ∃ filters, h.nodes[window]? =
    some ⟨window, op, data :: filters, result.inFormat .channelsFirst⟩
  dataMoved : h.Relays x image format .channelsFirst data
  outputMoved : h.Relays window result .channelsFirst format y
  dataType : h.type? data = some (image.inFormat .channelsFirst)
  outputType : h.type? y = some (result.inFormat format)
  dataElement : ∀ {α : Type} (given : Wire → List Nat → α) (batch channel row column : Nat),
    batch < image.batch → channel < image.channels → row < image.plane.vertical →
    column < image.plane.horizontal →
    h.element given data [batch, channel, row, column] =
      h.element given x (format.arrange batch channel row column)
  outputElement : ∀ {α : Type} (given : Wire → List Nat → α) (batch channel row column : Nat),
    batch < result.batch → channel < result.channels → row < result.plane.vertical →
    column < result.plane.horizontal →
    h.element given y (format.arrange batch channel row column) =
      h.element given window [batch, channel, row, column]

/-- A rule has lowered a window op on its first operand to its first output. -/
def LowersWindow (h : Graph) (format : DataFormat) (image result : ImageType) (op : Op)
    (ws : List Wire) (outputs : Outputs) : Prop :=
  ∃ x y data window, ws[0]? = some x ∧ outputs[0]? = some (some y) ∧
    LoweredWindow h format image result op x y data window

section Lowering

variable {ctx : Context} {format : DataFormat} {policy : PaddingPolicy} {g h : Graph}
  {result : ImageType} {op : Op}

theorem loweredWindow_of_relaid {g₁ g₂ : Graph} {x y data : Wire} {filters : List Wire}
    (hx : g.type? x = some (image.inFormat format))
    (hdata : Relaid g x image format .channelsFirst data g₁) (hle : g₁ ≤ g₂)
    (hy : Relaid (g₂.push op (data :: filters) (result.inFormat .channelsFirst)) g₂.size result
      .channelsFirst format y h) :
    LoweredWindow h format image result op x y data g₂.size := by
  have hpush := g₂.le_push op (data :: filters) (result.inFormat .channelsFirst)
  have hwindow := g₂.type?_push_self op (data :: filters) (result.inFormat .channelsFirst)
  have hlater : g₁ ≤ h := hle.trans (hpush.trans hy.le)
  refine ⟨⟨filters, hy.le _ _ (g₂.node_push_self _ _ _)⟩, hdata.relays hlater, hy.relays le_rfl,
    Graph.type?_mono hlater (hdata.type? hx), hy.type? hwindow, ?_, ?_⟩
  · intro α given batch channel row column hbatch hchannel hrow hcolumn
    exact hdata.element hx hlater hbatch hchannel hrow hcolumn
  · intro α given batch channel row column hbatch hchannel hrow hcolumn
    exact hy.element hwindow le_rfl hbatch hchannel hrow hcolumn

variable {kind : OpKind} {filter : Option TensorType} {ws : List Wire} {request : WindowRequest}

/-- What a node asks for is lowered, if its policy can run it. -/
theorem Requests.run {below above positions : Plane}
    (hrequest : Requests ctx format image kind filter request)
    (hformat : DataFormat.of ctx = .ok format) (hpolicy : paddingPolicy ctx = .ok policy)
    (hoperands : WindowOperands g format image kind filter ws) (hslots : 0 < ctx.node.outputs)
    (hplane : PlaneRun policy image.plane request.extent request.stride below above positions) :
    ∃ outputs h, kind.rule ctx ws g = .ok outputs h ∧
      LowersWindow h format image (image.resized request.count positions)
        (request.op ⟨below.toList, above.toList⟩) ws outputs := by
  cases hrequest with
  | @pool average window stride inputs hwindow hstride =>
    obtain @⟨_, x, hx⟩ := hoperands
    obtain ⟨data, g₁, hdata, hiff⟩ := pool_eq_ok average hformat hx
    obtain ⟨y, h, hrun, hy⟩ := paddedWindow_run hstride.1 hwindow.1
      (infer_pool (hdata.type? hx) average window stride below above) hslots hplane
    refine ⟨_, h, (hiff _ _).mpr ⟨inputs, _, spatialEntries_of_lists hwindow, _,
      spatialEntries_of_lists hstride, policy, hpolicy, hrun⟩, ?_⟩
    exact ⟨x, y, data, _, rfl, rfl, loweredWindow_of_relaid hx hdata le_rfl hy⟩
  | @convolve kernel stride dilations count inputs hstride hdilations =>
    obtain _ | @⟨x, f, _, hx, hf⟩ := hoperands
    obtain ⟨data, g₁, hdata, hmoved, hiff⟩ := convolve_eq_ok hformat hx hf
    obtain ⟨y, h, hrun, hy⟩ := paddedWindow_run hstride.1 (kernel.positive_dilated dilations)
      (infer_convolution hmoved (type?_movedFilters ..) dilations stride below above) hslots hplane
    rw [← makeDilated_plane] at hrun
    refine ⟨_, h, (hiff _ _).mpr ⟨inputs, _, spatialEntries_of_lists hstride, _,
      windowDilations_of_dilates hdilations, policy, hpolicy, hrun⟩, ?_⟩
    exact ⟨x, y, data, _, rfl, rfl, loweredWindow_of_relaid hx hdata (g₁.le_push _ _ _) hy⟩

/-- A rule that succeeds has run the window that the node asks for. -/
theorem Requests.planeRun {outputs : Outputs}
    (hrequest : Requests ctx format image kind filter request)
    (hformat : DataFormat.of ctx = .ok format) (hpolicy : paddingPolicy ctx = .ok policy)
    (hoperands : WindowOperands g format image kind filter ws)
    (hrun : kind.rule ctx ws g = .ok outputs h) :
    0 < ctx.node.outputs ∧ ∃ below above positions,
      PlaneRun policy image.plane request.extent request.stride below above positions := by
  cases hrequest with
  | @pool average window stride inputs hwindow hstride =>
    obtain @⟨_, x, hx⟩ := hoperands
    obtain ⟨data, g₁, hdata, hiff⟩ := pool_eq_ok average hformat hx
    obtain ⟨-, window', hwindow', stride', hstride', policy', hpolicy', hpadded⟩ :=
      (hiff _ _).mp hrun
    obtain rfl := Except.ok.inj (hwindow'.symm.trans (spatialEntries_of_lists hwindow))
    obtain rfl := Except.ok.inj (hstride'.symm.trans (spatialEntries_of_lists hstride))
    obtain rfl := Except.ok.inj (hpolicy'.symm.trans hpolicy)
    exact planeRun_of_paddedWindow hstride.1 hwindow.1
      (infer_pool (hdata.type? hx) average window stride) hpadded
  | @convolve kernel stride dilations count inputs hstride hdilations =>
    obtain _ | @⟨x, f, _, hx, hf⟩ := hoperands
    obtain ⟨data, g₁, -, hmoved, hiff⟩ := convolve_eq_ok hformat hx hf
    obtain ⟨-, stride', hstride', dilations', hdilations', policy', hpolicy', hpadded⟩ :=
      (hiff _ _).mp hrun
    obtain rfl := Except.ok.inj (hstride'.symm.trans (spatialEntries_of_lists hstride))
    obtain rfl := Except.ok.inj (hdilations'.symm.trans (windowDilations_of_dilates hdilations))
    obtain rfl := Except.ok.inj (hpolicy'.symm.trans hpolicy)
    rw [makeDilated_plane] at hpadded
    exact planeRun_of_paddedWindow hstride.1 (kernel.positive_dilated dilations)
      (infer_convolution hmoved (type?_movedFilters ..) dilations stride) hpadded

/-- A rule succeeds only on a node that asks for something, under one of the policies. -/
theorem Requests.of_rule {outputs : Outputs} (hformat : DataFormat.of ctx = .ok format)
    (hoperands : WindowOperands g format image kind filter ws)
    (hrun : kind.rule ctx ws g = .ok outputs h) :
    ∃ policy request, paddingPolicy ctx = .ok policy ∧
      Requests ctx format image kind filter request := by
  cases hoperands with
  | @pool average x hx =>
    obtain ⟨data, g₁, -, hiff⟩ := pool_eq_ok average hformat hx
    obtain ⟨inputs, _, hwindow, _, hstride, policy, hpolicy, -⟩ := (hiff _ _).mp hrun
    obtain ⟨window, -, hwindow⟩ := lists_of_spatialEntries hwindow
    obtain ⟨stride, -, hstride⟩ := lists_of_spatialEntries hstride
    exact ⟨policy, _, hpolicy, .pool inputs hwindow hstride⟩
  | @convolve x f filter hx hf =>
    obtain ⟨element, shape⟩ := filter
    obtain ⟨a, b, depth, count, rfl⟩ := List.length_eq_four.mp (convolve_rank hf hx hrun)
    -- The kernel of the filters, as a plane.
    obtain ⟨kernel, rfl, rfl⟩ : ∃ kernel : Plane, kernel.vertical = a ∧ kernel.horizontal = b :=
      ⟨⟨a, b⟩, rfl, rfl⟩
    obtain ⟨data, g₁, -, hmoved, hiff⟩ := convolve_eq_ok hformat hx hf
    obtain ⟨inputs, _, hstride, _, hdilations, policy, hpolicy, hpadded⟩ := (hiff _ _).mp hrun
    obtain ⟨stride, -, hstride⟩ := lists_of_spatialEntries hstride
    obtain ⟨dilations, -, hdilations⟩ := dilates_of_windowDilations hdilations
    obtain ⟨padding, type, hinfer⟩ := infer_of_paddedWindow hpadded
    rw [Graph.infer_of_types (Graph.types_two hmoved (type?_movedFilters ..))] at hinfer
    obtain ⟨rfl, rfl⟩ := filters_of_infer rfl hinfer
    exact ⟨policy, _, hpolicy, .convolve inputs hstride hdilations⟩

end Lowering

end GraphLowering
