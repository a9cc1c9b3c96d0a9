import Mathlib
import GraphLowering.Proofs.AxisNumbers
import GraphLowering.Proofs.Outcome

/-!
# What rules read

Before a lowering rule appends anything it reads: the inputs of its node, attributes, values on input
slots, the shapes of its operands. It checks every position before it reads it, every difference before
it takes it, and every divisor before it divides. So reading gives a result of which something is
known, or refuses the node in one of the ways that an input can cause, none of which is a mismatch of
shapes. The one exception is the padding of a window op under the policy `same`, which computes with
signed words and faults if one of them cannot hold its result.

* `Context.Overflows`, `Context.Stops` — the sizes that make padding overflow, and the failures of a
  rule.
* `staticInput_yields`, `inferDims_yields`, `squeezedAxes_yields`, … — what rules read.
* `paddingMake_yields` — padding, which may overflow.
* `output_ends`, `needRank_bind_ends` — the steps that only refuse.
-/

namespace GraphLowering

open Target

/-! ### Overflow -/

/-- Some tensor of the arena has an axis of this size. -/
def Target.Graph.HasSize (g : Graph) (size : Nat) : Prop :=
  ∃ w type, g.type? w = some type ∧ size ∈ type.shape

/-- The padding of an axis under the policy `same` goes through a number that no signed word
holds. -/
def SameAxis.Overflows (image kernel stride : Nat) : Prop :=
  (SameAxis.of (signed64 image) (signed64 kernel) (signed64 stride)).fits (signed64 image)
    (signed64 kernel) (signed64 stride) = false

namespace Context

/-- An attribute of the node lists this number. -/
def HasEntry (ctx : Context) (key : String) (n : Nat) : Prop :=
  ∃ values, ctx.node.ints key = .ok values ∧ (n : Int) ∈ values

/-- A window op whose padding overflows: the window of a pooling op, or the dilated filters of a
convolution, move over an axis of a tensor in the arena. -/
inductive Overflows (ctx : Context) (g : Graph) : Prop where
  | pool {image window stride : Nat} (policy : ctx.node.text "padding" = .ok "SAME")
      (hasImage : g.HasSize image) (hasWindow : ctx.HasEntry "ksize" window)
      (hasStride : ctx.HasEntry "strides" stride)
      (overflows : SameAxis.Overflows image window stride)
  | convolve {image size dilation stride : Nat} (policy : ctx.node.text "padding" = .ok "SAME")
      (hasImage : g.HasSize image) (hasSize : g.HasSize size)
      (hasDilation : dilation = 1 ∨ ctx.HasEntry "dilations" dilation)
      (hasStride : ctx.HasEntry "strides" stride)
      (overflows : SameAxis.Overflows image (dilatedExtent size dilation) stride)

/-- The failures of a rule: those that an input can cause, and overflow. -/
def Stops (ctx : Context) (g : Graph) (e : Error) : Prop :=
  e.Declared ∨ e = .internal .overflow ∧ ctx.Overflows g

end Context

/-! ### What rules read -/

section Reads

variable {fails : Error → Prop} (hrefusal : ∀ e, e.Refusal → fails e) {ctx : Context}
include hrefusal

theorem needInputs_yields (count : Nat) :
    Yields fails (fun _ => ctx.node.inputs = count) (ctx.needInputs count) := by
  unfold Context.needInputs
  split
  case isTrue h => exact .ok h
  case isFalse => exact .error (hrefusal _ trivial)

theorem needInputsAtLeast_yields (least : Nat) :
    Yields fails (fun _ => least ≤ ctx.node.inputs) (ctx.needInputsAtLeast least) := by
  unfold Context.needInputsAtLeast
  split
  case isTrue h => exact .ok h
  case isFalse => exact .error (hrefusal _ trivial)

theorem attrOfKind_yields {α : Type} (v : Source.Node) (key expected : String)
    (read : Attribute → Option α) :
    Yields fails (fun a => v.attrOfKind key expected read = .ok a)
      (v.attrOfKind key expected read) := by
  cases h : v.attrOfKind key expected read with
  | ok a => exact .ok rfl
  | error e =>
    obtain rfl | ⟨got, rfl⟩ := Source.Node.attrOfKind_error h
    · exact .error (hrefusal _ trivial)
    · exact .error (hrefusal _ trivial)

theorem attrOfKind?_yields {α : Type} (v : Source.Node) (key expected : String)
    (read : Attribute → Option α) :
    Yields fails (fun _ => True) (v.attrOfKind? key expected read) := by
  unfold Source.Node.attrOfKind?
  split
  · exact .ok trivial
  · split
    · exact .ok trivial
    · exact .error (hrefusal _ trivial)

theorem boolOr_yields (v : Source.Node) (key : String) (default : Bool) :
    Yields fails (fun _ => True) (v.boolOr key default) :=
  (attrOfKind?_yields hrefusal v key _ _).bind fun _ _ => .ok trivial

theorem textOr_yields (v : Source.Node) (key default : String) :
    Yields fails (fun _ => True) (v.textOr key default) :=
  (attrOfKind?_yields hrefusal v key _ _).bind fun _ _ => .ok trivial

theorem element_yields (type : DataType) : Yields fails (fun _ => True) type.element := by
  unfold DataType.element
  split
  · exact .ok trivial
  · exact .error (hrefusal _ trivial)

theorem axis_yields (axis : Int) (rank : Nat) :
    Yields fails (fun place => place < rank) (ctx.axis axis rank) := by
  unfold Context.axis
  generalize (if axis < 0 then axis + rank else axis) = place
  dsimp only
  split
  case isTrue h => exact .ok (by omega)
  case isFalse => exact .error (hrefusal _ trivial)

theorem knownElements_yields (dims rest : List Int) (unknown : Bool) (known : Nat) :
    Yields fails (fun _ => True) (knownElements ctx dims rest unknown known) := by
  induction rest generalizing unknown known with
  | nil => exact .ok trivial
  | cons d rest ih =>
    unfold knownElements
    split
    · split
      · exact .error (hrefusal _ trivial)
      · exact ih true known
    · split
      · exact .error (hrefusal _ trivial)
      · exact ih unknown _

theorem inferredSize_yields (dims : List Int) (elements : Nat) (unknown : Bool) (known : Nat) :
    Yields fails (fun _ => True) (inferredSize ctx dims elements unknown known) := by
  unfold inferredSize
  split
  case isTrue => exact .ok trivial
  case isFalse =>
    split
    case isTrue => exact .error (hrefusal _ trivial)
    case isFalse hknown =>
      refine (remainder_yields hknown).bind fun left _ => ?_
      split
      · exact .error (hrefusal _ trivial)
      · exact (quotient_yields hknown).mono fun _ _ => trivial

/-- The shape that is found has as many elements as the tensor. -/
theorem inferDims_yields (dims : List Int) (elements : Nat) :
    Yields fails (fun shape => shape.elements = elements) (inferDims ctx dims elements) := by
  refine (knownElements_yields hrefusal dims dims false 1).bind fun (unknown, known) _ => ?_
  refine (inferredSize_yields hrefusal dims elements unknown known).bind fun size _ => ?_
  dsimp only
  split
  case isTrue => exact .error (hrefusal _ trivial)
  case isFalse hsame => exact .ok (not_not.mp hsame)

/-- Only axes of size one are dropped. -/
theorem squeezedAxes_yields (requested : List Int) (shape : Shape) :
    Yields fails (fun dropped => ∀ axis ∈ dropped, shape[axis]? = some 1)
      (Rule.squeezedAxes ctx requested shape) := by
  unfold Rule.squeezedAxes
  split
  · exact .ok fun axis haxis => of_decide_eq_true (List.mem_filter.mp haxis).2
  · refine Yields.mapM fun a _ => ?_
    refine (axis_yields hrefusal a shape.length).bind fun axis haxis => ?_
    refine (entryAt_yields haxis).bind fun size hsize => ?_
    dsimp only
    split
    case isTrue => exact .error (hrefusal _ trivial)
    case isFalse hone =>
      rw [not_not.mp hone] at hsize
      exact .ok hsize

theorem dataFormat_yields : Yields fails (fun _ => True) (DataFormat.of ctx) := by
  refine (textOr_yields hrefusal ctx.node "data_format" "NHWC").bind fun name _ => ?_
  split
  · exact .ok trivial
  · exact .ok trivial
  · exact .error (hrefusal _ trivial)

/-- The four entries of a window attribute have been counted before two of them are read. -/
theorem spatialEntries_yields (key : String) (format : DataFormat) :
    Yields fails (fun sizes => ∀ n ∈ sizes, ctx.HasEntry key n) (spatialEntries ctx key format) := by
  refine (attrOfKind_yields hrefusal ctx.node key _ _).bind fun values hvalues => ?_
  dsimp only
  split
  case isTrue => exact .error (hrefusal _ trivial)
  case isFalse hcount =>
    have hlength : values.length = 4 := not_not.mp hcount
    have haxes : ∀ axis ∈ format.spatialAxes, axis < 4 := by
      cases format <;> simp [DataFormat.spatialAxes]
    refine Yields.mapM fun axis haxis => ?_
    have hlt := haxes axis haxis
    refine (entryAt_yields (by omega)).bind fun value hvalue => ?_
    split
    case isTrue => exact .error (hrefusal _ trivial)
    case isFalse hpos =>
      refine .ok ⟨values, hvalues, ?_⟩
      rw [Int.toNat_of_nonneg (by omega)]
      exact List.mem_of_getElem? hvalue

theorem paddingPolicy_yields :
    Yields fails (fun policy => policy = .same → ctx.node.text "padding" = .ok "SAME")
      (paddingPolicy ctx) := by
  refine (attrOfKind_yields hrefusal ctx.node "padding" _ _).bind fun name hname => ?_
  unfold PaddingPolicy.ofName?
  split
  case h_1 policy h =>
    split at h
    case h_1 => exact .ok fun _ => hname
    case h_2 =>
      cases h
      exact .ok nofun
    case h_3 => cases h
  case h_2 => exact .error (hrefusal _ trivial)

omit hrefusal in
theorem channelAxis_yields (format : DataFormat) {rank : Nat} (hrank : 2 ≤ rank) :
    Yields fails (fun channel => channel < rank) (format.channelAxis rank) := by
  cases format with
  | channelsLast => exact (minus_yields (by omega)).mono fun channel h => by omega
  | channelsFirst => exact .ok (by omega)

omit hrefusal in
theorem elementsAlong_yields {axes : List Nat} {shape : Shape}
    (haxes : ∀ axis ∈ axes, axis < shape.length) :
    Yields fails (fun _ => True) (elementsAlong axes shape) :=
  (Yields.mapM_trivial fun axis haxis =>
    (entryAt_yields (haxes axis haxis)).mono fun _ _ => trivial).bind fun _ _ => .ok trivial

/-! ### Padding -/

section Padding

variable {image kernel strides : List Nat}

omit hrefusal in
theorem sameAxis_yields {size extent stride : Nat} (hstride : stride ≠ 0)
    (hoverflow : SameAxis.Overflows size extent stride → fails (.internal .overflow)) :
    Yields fails (fun _ => True) (sameAxis size extent stride) := by
  unfold sameAxis
  rw [if_neg hstride]
  dsimp only
  split
  case isTrue => exact .ok trivial
  case isFalse hfits => exact .error (hoverflow (Bool.eq_false_iff.mpr hfits))

theorem paddingMake_yields {policy : PaddingPolicy}
    (hoverflow : policy = .same → ∀ size ∈ image, ∀ extent ∈ kernel, ∀ stride ∈ strides,
      SameAxis.Overflows size extent stride → fails (.internal .overflow)) :
    Yields fails (fun _ => True) (Padding.make policy image kernel strides) := by
  unfold Padding.make
  dsimp only
  split
  case isTrue => exact .error (hrefusal _ trivial)
  case isFalse hrank =>
    split
    case isTrue => exact .error (hrefusal _ trivial)
    case isFalse hzero =>
      cases policy with
      | valid => exact .ok trivial
      | same =>
        refine (Yields.mapM_trivial fun d hd => ?_).bind fun axes _ => .ok trivial
        have hlt : d < image.length := List.mem_range.mp hd
        refine (entryAt_yields hlt).bind fun size hsize => ?_
        refine (entryAt_yields (by omega)).bind fun extent hextent => ?_
        refine (entryAt_yields (by omega)).bind fun stride hstride => ?_
        have hmem := List.mem_of_getElem? hstride
        refine sameAxis_yields ?_ fun h => hoverflow rfl size (List.mem_of_getElem? hsize) extent
          (List.mem_of_getElem? hextent) stride hmem h
        rintro rfl
        exact hzero (by simpa using hmem)

/-- The kernel of a dilated window is made of the sizes and the dilations. -/
theorem paddingMakeDilated_yields {policy : PaddingPolicy} {dilations : List Nat}
    (hoverflow : policy = .same → ∀ size ∈ image, ∀ extent ∈ kernel, ∀ dilation ∈ dilations,
      ∀ stride ∈ strides, SameAxis.Overflows size (dilatedExtent extent dilation) stride →
        fails (.internal .overflow)) :
    Yields fails (fun _ => True) (Padding.makeDilated policy image kernel strides dilations) := by
  unfold Padding.makeDilated
  split
  case isTrue => exact .error (hrefusal _ trivial)
  case isFalse =>
    refine paddingMake_yields hrefusal fun hsame size hsize dilated hdilated stride hstride => ?_
    obtain ⟨k, hk⟩ := List.mem_iff_getElem?.mp hdilated
    rw [dilateKernel, List.getElem?_zipWith_eq_some] at hk
    obtain ⟨extent, dilation, hextent, hdilation, rfl⟩ := hk
    exact hoverflow hsame size hsize extent (List.mem_of_getElem? hextent) dilation
      (List.mem_of_getElem? hdilation) stride hstride

end Padding

/-! ### Values on slots -/

section Static

variable (wf : ctx.graph.WellFormed) {i : Nat} (hv : ctx.graph.node? i = some ctx.node)
include wf hv

theorem staticInput_yields (slot : Nat) :
    Yields fails (fun _ => True) (ctx.staticInput slot) := by
  obtain ⟨hnone, -⟩ | ⟨j, output, hcarries, hedge⟩ := Source.Graph.inputEdge?_cases wf hv slot
  · rw [Context.staticInput, hnone]
    exact .error (hrefusal _ trivial)
  · obtain ⟨producer, hp⟩ := hcarries.exists_producer wf
    simp only [Context.staticInput, hedge, Source.Graph.node_of_some hp, except_ok_bind]
    split
    · refine (attrOfKind_yields hrefusal producer "index" _ _).bind fun index _ => ?_
      split
      · exact .ok trivial
      · exact .error (hrefusal _ trivial)
    · split
      · exact (attrOfKind_yields hrefusal producer "value" _ _).mono fun _ _ => trivial
      · exact .error (hrefusal _ trivial)

theorem staticInts_yields (slot : Nat) : Yields fails (fun _ => True) (ctx.staticInts slot) := by
  refine (staticInput_yields hrefusal wf hv slot).bind fun value _ => ?_
  split
  · exact .ok trivial
  · exact .error (hrefusal _ trivial)

theorem axisValue_yields (slot : Nat) : Yields fails (fun _ => True) (axisValue ctx slot) := by
  refine (staticInts_yields hrefusal wf hv slot).bind fun values _ => ?_
  split
  · exact .ok trivial
  · exact .error (hrefusal _ trivial)

theorem reductionAxes_yields (rank : Nat) :
    Yields fails (fun axes => axes.Nodup ∧ ∀ axis ∈ axes, axis < rank) (reductionAxes ctx rank) := by
  rw [reductionAxes_eq_filter]
  refine (staticInts_yields hrefusal wf hv 1).bind fun values _ => ?_
  refine (Yields.mapM fun a _ => axis_yields hrefusal a rank).bind fun axes _ => ?_
  refine .ok ⟨List.nodup_range.filter _, fun axis haxis => ?_⟩
  exact List.mem_range.mp (List.mem_filter.mp haxis).1

end Static

end Reads

/-! ### Steps that only refuse -/

/-- The outputs of a node that fills the first of its `count` slots and no other. -/
def FillsFirst (count : Nat) (outputs : Outputs) : Prop :=
  ∃ w, 0 < count ∧ outputs = some w :: List.replicate (count - 1) none

/-- The outputs that a kind gives to a node with `count` output slots: a split fills all of them, a
node that only orders others fills none, and every other kind fills the first. -/
def OpKind.Fills (kind : OpKind) (count : Nat) (outputs : Outputs) : Prop :=
  match kind with
  | .split => ∃ wires : List Wire, outputs = wires.map some ∧ wires.length = count
  | .nothing => outputs = List.replicate count none
  | _ => FillsFirst count outputs

section Steps

variable {fails : Graph → Error → Prop} {ctx : Context} {g : Graph} {x : Wire}

theorem entryAt_wires_yields {ws : List Wire} (hws : ∀ w ∈ ws, g.Has w) {i : Nat}
    (h : i < ws.length) : Yields (fails g) g.Has (entryAt ws i) :=
  (entryAt_yields h).mono fun _ hw => hws _ (List.mem_of_getElem? hw)

variable (hrefusal : ∀ g e, e.Refusal → fails g e)
include hrefusal

theorem output_ends (w : Wire) :
    Ends fails g (fun _ => FillsFirst ctx.node.outputs)
      ((liftM (ctx.output w) : Emit Outputs) g) := by
  refine Ends.lift ?_ fun _ h => h
  unfold Context.output Context.setOutput Context.noOutputs
  cases ctx.node.outputs with
  | zero => exact .error (hrefusal _ _ trivial)
  | succ count => exact .ok ⟨w, by omega, rfl⟩

theorem needRank_bind_ends {α : Type} {post : Graph → α → Prop} {f : Unit → Emit α}
    {type : TensorType} (hx : g.type? x = some type) (what : String) (rank : Nat)
    (hf : type.shape.length = rank → Ends fails g post (f () g)) :
    Ends fails g post ((needRank ctx what x rank >>= f) g) := by
  unfold needRank
  rw [bind_assoc]
  refine Ends.shapeOf_bind hx ?_
  split
  case isTrue => exact Ends.throw_bind (hrefusal _ _ trivial)
  case isFalse h => exact Ends.pure_bind (hf (not_not.mp h))

end Steps

end GraphLowering
