import Mathlib
import GraphLowering.Proofs.MeanDivisor

/-!
# Axes of a reduction

A sum or a mean is taken along the axes that a list of numbers names. Nothing else of the list counts:
two lists that name the same axes give the same nodes, whatever their order, their signs and their
repetitions. The result lacks these axes or, where they are kept, has size one along them. Squeezing
the kept axes, by the very list that named them, gives the shape without them.

* `withoutAxes`, `withUnitAxes` — a shape without some axes, or with size one along them.
* `namedAxes_congr` — the axes of a reduction are those of any list that names the same ones.
* `reduce_congr` — of its list of numbers a reduction sees only these axes.
* `reduce_run` — the nodes of a sum or a mean, which are always appended.
* `squeeze_withUnitAxes` — a squeeze of axes that were kept.
* `reductions_depend_on_axes` — what the list counts for, the shape of the result, and its squeeze.
-/

namespace GraphLowering

open Target

/-- The shape without the listed axes. -/
def withoutAxes (axes : List Nat) (shape : Shape) : Shape :=
  ((List.range shape.length).filter fun axis => axis ∉ axes).map fun axis => shape.getD axis 0

/-- The shape with size one along the listed axes. -/
def withUnitAxes (axes : List Nat) (shape : Shape) : Shape :=
  (List.range shape.length).map fun axis => if axis ∈ axes then 1 else shape.getD axis 0

/-! ### Lists that name the same axes -/

section Named

variable {rank : Nat} {numbers numbers' : List Int}

theorem mem_namedAxes (hnames : ∀ a ∈ numbers, NamesAxis rank a) {axis : Nat} :
    axis ∈ namedAxes numbers rank ↔ axis ∈ axesAt rank numbers := by
  rw [namedAxes, List.mem_filter, List.mem_range, decide_eq_true_iff, axesAt, List.mem_map]
  constructor
  · rintro ⟨hlt, a, ha, heq⟩
    exact ⟨a, ha, (axisAt_eq_iff (hnames a ha) hlt).mpr heq⟩
  · rintro ⟨a, ha, rfl⟩
    have hlt := axisAt_lt (hnames a ha)
    exact ⟨hlt, a, ha, (axisAt_eq_iff (hnames a ha) hlt).mp rfl⟩

/-- The axes in increasing order depend on which axes are named, and on nothing else. -/
theorem namedAxes_congr (hnames : ∀ a ∈ numbers, NamesAxis rank a)
    (hnames' : ∀ a ∈ numbers', NamesAxis rank a)
    (hsame : ∀ axis, axis ∈ axesAt rank numbers ↔ axis ∈ axesAt rank numbers') :
    namedAxes numbers rank = namedAxes numbers' rank := by
  rw [namedAxes_eq_filter numbers, namedAxes_eq_filter numbers']
  refine List.filter_congr fun axis _ => ?_
  rw [decide_eq_decide, mem_namedAxes hnames, mem_namedAxes hnames', hsame]

/-- A reduction finds the axes that its numbers name. -/
theorem reductionAxes_of_names {ctx : Context} (hnumbers : ctx.staticInts 1 = .ok numbers)
    (hnames : ∀ a ∈ numbers, NamesAxis rank a) :
    reductionAxes ctx rank = .ok (namedAxes numbers rank) := by
  have hrun : reductionAxes ctx rank =
      .ok ((List.range rank).filter fun axis => (axesAt rank numbers).contains axis) := by
    rw [reductionAxes_eq_filter, hnumbers, except_ok_bind, mapM_axis_of_names ctx hnames]
    rfl
  obtain ⟨found, hfound, haxes⟩ := reductionAxes_eq_ok hrun
  obtain rfl := Except.ok.inj (hnumbers.symm.trans hfound)
  rw [hrun, haxes]

end Named

theorem sizesOff_congr {axes axes' : List Nat} (shape : Shape)
    (h : ∀ axis, axis ∈ axes ↔ axis ∈ axes') : sizesOff axes shape = withoutAxes axes' shape := by
  simp only [sizesOff_eq, withoutAxes, h]

theorem unitSizes_congr {axes axes' : List Nat} (shape : Shape)
    (h : ∀ axis, axis ∈ axes ↔ axis ∈ axes') : unitSizes axes shape = withUnitAxes axes' shape := by
  simp only [unitSizes_eq, withUnitAxes, h]

@[simp] theorem length_withUnitAxes (axes : List Nat) (shape : Shape) :
    (withUnitAxes axes shape).length = shape.length := by
  simp [withUnitAxes]

theorem getD_withUnitAxes (axes : List Nat) (shape : Shape) {axis : Nat} (h : axis < shape.length) :
    (withUnitAxes axes shape).getD axis 0 = if axis ∈ axes then 1 else shape.getD axis 0 := by
  simp [withUnitAxes, h]

/-- Taking away axes whose size has been set to one is taking them away. -/
theorem withoutAxes_withUnitAxes (axes : List Nat) (shape : Shape) :
    withoutAxes axes (withUnitAxes axes shape) = withoutAxes axes shape := by
  rw [withoutAxes, withoutAxes, length_withUnitAxes]
  refine List.map_congr_left fun axis haxis => ?_
  obtain ⟨hlt, hnot⟩ := List.mem_filter.mp haxis
  rw [getD_withUnitAxes axes shape (List.mem_range.mp hlt), if_neg (of_decide_eq_true hnot)]

theorem elements_withUnitAxes (axes : List Nat) (shape : Shape) :
    (withUnitAxes axes shape).elements = (withoutAxes axes shape).elements := by
  rw [← unitSizes_congr shape fun _ => Iff.rfl, ← sizesOff_congr shape fun _ => Iff.rfl,
    elements_unitSizes]

/-! ### The nodes of a reduction -/

/-- Two reductions at one node that find the same axes run alike, even where they fail. -/
theorem reduce_congr (mean : Bool) {ctx ctx' : Context} {ws : List Wire} {g : Graph} {x : Wire}
    {type : TensorType} (hnode : ctx.node = ctx'.node) (hoperand : ws[0]? = some x)
    (hx : g.type? x = some type)
    (haxes : reductionAxes ctx type.shape.length = reductionAxes ctx' type.shape.length) :
    Rule.reduce mean ctx ws g = Rule.reduce mean ctx' ws g := by
  obtain ⟨node, graph, statics⟩ := ctx
  obtain ⟨node', graph', statics'⟩ := ctx'
  obtain rfl : node = node' := hnode
  unfold Rule.reduce
  by_cases hinputs : node.inputs = 2
  · -- Behind the shape of the operand the two differ in nothing but how they come by the axes.
    rw [Context.needInputs_run hinputs, Context.needInputs_run hinputs,
      Step.lift_bind_of_ok (entryAt_eq_ok hoperand), Step.lift_bind_of_ok (entryAt_eq_ok hoperand),
      Step.bind_of_ok (shapeOf_of_type? hx), Step.bind_of_ok (shapeOf_of_type? hx)]
    dsimp only
    rw [haxes]
    rfl
  · have hrefused : ∀ ctx : Context, ctx.node = node → (liftM (ctx.needInputs 2) : Emit Unit) g =
        .error (.invalid (.inputCount node.name 2 node.inputs)) g := by
      rintro ctx rfl
      rw [Context.needInputs, if_neg hinputs]
      rfl
    rw [Step.bind_of_error (hrefused ⟨node, graph, statics⟩ rfl),
      Step.bind_of_error (hrefused ⟨node, graph', statics'⟩ rfl)]

section Arena

variable (mean : Bool) (g : Graph) (x : Wire) (numbers : List Int) (type : TensorType)

/-- The arena with the sum or the mean along the named axes, before the axes are put back. -/
def totalsArena : Graph :=
  if mean then quotientArena g x numbers type else sumArena g x numbers type

/-- The wire of the sum or the mean. -/
def totalsWire : Wire := if mean then g.size + 2 else g.size

/-- The arena after a reduction. Axes that stay are put back by a reshape. -/
def reducedArena (keep : Bool) : Graph :=
  if keep then
    (totalsArena mean g x numbers type).push
      (.reshape (List.range (sumType numbers type).shape.length)
        (unitSizes (namedAxes numbers type.shape.length) type.shape)) [totalsWire mean g]
      ⟨type.element, unitSizes (namedAxes numbers type.shape.length) type.shape⟩
  else totalsArena mean g x numbers type

/-- The wire of a reduction. -/
def reducedWire (keep : Bool) : Wire := if keep then totalsWire mean g + 1 else totalsWire mean g

@[simp] theorem size_totalsArena :
    (totalsArena mean g x numbers type).size = totalsWire mean g + 1 := by
  cases mean with
  | true => exact size_quotientArena g x numbers type
  | false => exact size_sumArena g x numbers type

theorem type?_totalsArena :
    (totalsArena mean g x numbers type).type? (totalsWire mean g) = some (sumType numbers type) := by
  cases mean with
  | true =>
    show (quotientArena g x numbers type).type? (g.size + 2) = _
    rw [← size_divisorArena g x numbers type]
    exact Graph.type?_push_self _ _ _ _
  | false => exact Graph.type?_push_self _ _ _ _

theorem reshape_totals :
    reshaped (totalsWire mean g) (unitSizes (namedAxes numbers type.shape.length) type.shape)
      (totalsArena mean g x numbers type) =
      .ok (totalsWire mean g + 1) (reducedArena mean g x numbers type true) := by
  rw [reshaped_run (type?_totalsArena mean g x numbers type) (elements_unitSizes _ _).symm,
    size_totalsArena]
  rfl

theorem type?_reducedArena (keep : Bool) :
    (reducedArena mean g x numbers type keep).type? (reducedWire mean g keep) =
      some ⟨type.element,
        if keep then unitSizes (namedAxes numbers type.shape.length) type.shape
        else sizesOff (namedAxes numbers type.shape.length) type.shape⟩ := by
  cases keep with
  | true =>
    show Graph.type? _ (totalsWire mean g + 1) = _
    rw [← size_totalsArena mean g x numbers type]
    exact Graph.type?_push_self _ _ _ _
  | false => exact type?_totalsArena mean g x numbers type

/-- The sum is the first node of a reduction. -/
theorem sumArena_le (keep : Bool) :
    sumArena g x numbers type ≤ reducedArena mean g x numbers type keep := by
  have htotals : sumArena g x numbers type ≤ totalsArena mean g x numbers type := by
    cases mean with
    | true => exact le_trans (Graph.le_push _ _ _ _) (Graph.le_push _ _ _ _)
    | false => exact le_rfl
  cases keep with
  | true => exact le_trans htotals (Graph.le_push _ _ _ _)
  | false => exact htotals

end Arena

/-- With what it reads, a reduction succeeds, and appends its nodes. -/
theorem reduce_run (mean : Bool) {ctx : Context} {ws : List Wire} {g : Graph} {x : Wire}
    {type : TensorType} {numbers : List Int} {keep : Bool}
    (hreads : ReductionReads ctx ws g x type numbers keep) :
    Rule.reduce mean ctx ws g =
      .ok (some (reducedWire mean g keep) :: List.replicate (ctx.node.outputs - 1) none)
        (reducedArena mean g x numbers type keep) := by
  cases mean with
  | true =>
    rw [reduce_mean_run hreads]
    cases keep <;> rfl
  | false =>
    have hsum : emit (.sum (namedAxes numbers type.shape.length)) [x] g = .ok g.size
        (sumArena g x numbers type) :=
      emit_of_type hreads.typed (infer_namedSum numbers type)
    rw [Rule.reduce, Context.needInputs_run hreads.inputs,
      Step.lift_bind_of_ok (entryAt_eq_ok hreads.operand),
      Step.bind_of_ok (shapeOf_of_type? hreads.typed), Step.lift_bind_of_ok hreads.axesOf,
      Step.lift_bind_of_ok hreads.keepOf, Step.bind_of_ok hsum]
    dsimp only
    rw [if_neg Bool.false_ne_true, pure_bind]
    cases keep with
    | true =>
      rw [if_pos rfl]
      exact (Step.bind_of_ok (reshape_totals false g x numbers type)).trans
        (Context.output_run hreads.slots _ _)
    | false =>
      rw [if_neg Bool.false_ne_true, pure_bind]
      exact Context.output_run hreads.slots _ _

/-! ### Squeezing the axes that stay -/

/-- What a squeeze by a list of numbers finds at its node and on its operand. -/
structure SqueezeReads (ctx : Context) (ws : List Wire) (g : Graph) (x : Wire) (type : TensorType)
    (numbers : List Int) : Prop where
  inputs : ctx.node.inputs = 1
  slots : 0 < ctx.node.outputs
  operand : ws[0]? = some x
  typed : g.type? x = some type
  requested : ctx.node.attrOfKind? "squeeze_dims" "list(int)" Attribute.ints? = .ok (some numbers)

section Squeeze

variable {ctx : Context} {ws : List Wire} {g : Graph} {x : Wire} {type : TensorType}
  {numbers : List Int}

/-- Where all numbers name axes of size one, these are the axes that are dropped. -/
theorem squeezedAxes_of_units (ctx : Context) {shape : Shape} {rank : Nat}
    (hrank : shape.length = rank) (hsome : numbers ≠ []) (hnames : ∀ a ∈ numbers, NamesAxis rank a)
    (hunits : ∀ axis ∈ axesAt rank numbers, shape[axis]? = some 1) :
    Rule.squeezedAxes ctx numbers shape = .ok (axesAt rank numbers) := by
  rw [Rule.squeezedAxes, if_neg (by simpa using hsome), except_mapM_eq_ok, axesAt,
    List.forall₂_map_right_iff, List.forall₂_same, hrank]
  intro a ha
  have hunit : shape[axisAt rank a]? = some 1 := hunits _ (List.mem_map_of_mem ha)
  rw [ctx.axis_of_names (hnames a ha), except_ok_bind, entryAt_eq_ok hunit, except_ok_bind,
    if_neg (not_not.mpr rfl)]
  rfl

/-- With axes of size one, a squeeze succeeds, and appends one node. -/
theorem squeeze_run (hreads : SqueezeReads ctx ws g x type numbers) {dropped : List Nat}
    (hdropped : Rule.squeezedAxes ctx numbers type.shape = .ok dropped)
    (helements : type.shape.elements = (sizesOff dropped type.shape).elements) :
    Rule.squeeze ctx ws g =
      .ok (some g.size :: List.replicate (ctx.node.outputs - 1) none)
        (g.push (.reshape (List.range type.shape.length) (sizesOff dropped type.shape)) [x]
          ⟨type.element, sizesOff dropped type.shape⟩) := by
  rw [Rule.squeeze, Context.needInputs_run hreads.inputs,
    Step.lift_bind_of_ok (entryAt_eq_ok hreads.operand),
    Step.bind_of_ok (shapeOf_of_type? hreads.typed), Step.lift_bind_of_ok hreads.requested]
  dsimp only [Option.getD_some]
  rw [Step.lift_bind_of_ok hdropped, Step.bind_of_ok (reshaped_run hreads.typed helements)]
  exact Context.output_run hreads.slots _ _

/-- Kept axes are dropped by the numbers that named them. -/
theorem squeeze_withUnitAxes {element : ElementType} {shape : Shape}
    (hnames : ∀ a ∈ numbers, NamesAxis shape.length a) (hsome : numbers ≠ [])
    (hreads : SqueezeReads ctx ws g x
      ⟨element, withUnitAxes (axesAt shape.length numbers) shape⟩ numbers) :
    Rule.squeeze ctx ws g =
      .ok (some g.size :: List.replicate (ctx.node.outputs - 1) none)
        (g.push (.reshape (List.range shape.length) (withoutAxes (axesAt shape.length numbers) shape))
          [x] ⟨element, withoutAxes (axesAt shape.length numbers) shape⟩) := by
  have hlength := length_withUnitAxes (axesAt shape.length numbers) shape
  have hunits : ∀ axis ∈ axesAt shape.length numbers,
      (withUnitAxes (axesAt shape.length numbers) shape)[axis]? = some 1 := by
    intro axis haxis
    simp [withUnitAxes, haxis, lt_of_mem_axesAt hnames haxis]
  have hshape : sizesOff (axesAt shape.length numbers)
      (withUnitAxes (axesAt shape.length numbers) shape) =
      withoutAxes (axesAt shape.length numbers) shape := by
    rw [sizesOff_congr _ fun _ => Iff.rfl, withoutAxes_withUnitAxes]
  have hrun := squeeze_run hreads (squeezedAxes_of_units ctx hlength hsome hnames hunits)
    (by rw [hshape]; exact elements_withUnitAxes _ _)
  rwa [hshape, hlength] at hrun

end Squeeze

section Result

variable {ctx : Context} {ws : List Wire} {g : Graph} {x : Wire} {type : TensorType}
  {numbers : List Int} {keep : Bool}

theorem ReadsNumbers.reduction (hreads : ReadsNumbers ctx ws g x type numbers)
    (hnames : ∀ a ∈ numbers, NamesAxis type.shape.length a)
    (hkeep : ctx.node.boolOr "keep_dims" false = .ok keep) :
    ReductionReads ctx ws g x type numbers keep :=
  ⟨hreads.inputs, hreads.slots, hreads.operand, hreads.typed, hreads.numbersOf,
    reductionAxes_of_names hreads.numbersOf hnames, hkeep⟩

/-- The type of a reduction. -/
theorem type?_reduced (mean : Bool) (g : Graph) (x : Wire) (keep : Bool)
    (hnames : ∀ a ∈ numbers, NamesAxis type.shape.length a) :
    (reducedArena mean g x numbers type keep).type? (reducedWire mean g keep) =
      some ⟨type.element,
        if keep then withUnitAxes (axesAt type.shape.length numbers) type.shape
        else withoutAxes (axesAt type.shape.length numbers) type.shape⟩ := by
  rw [type?_reducedArena, unitSizes_congr _ fun _ => mem_namedAxes hnames,
    sizesOff_congr _ fun _ => mem_namedAxes hnames]

end Result

/-- **A reduction depends only on which axes are named, and squeezing undoes keeping them.** For a sum
and for a mean, with numbers that name axes of the operand:

* at one node, a second list that names the same axes gives the same run, with the same nodes and the
  same output, whatever the order, the signs and the repetitions of its numbers;
* the reduction starts with the sum along these axes in increasing order, and its result has the shape
  of the operand without them, or with size one along them if they are kept;
* if there are numbers at all, a squeeze by them of a result that keeps the axes succeeds, and has the
  type of a result that does not keep them. -/
theorem reductions_depend_on_axes (mean : Bool) {ws : List Wire} {g : Graph} {x : Wire}
    {type : TensorType} {numbers : List Int} (hoperand : ws[0]? = some x)
    (hx : g.type? x = some type) (hnames : ∀ a ∈ numbers, NamesAxis type.shape.length a) :
    (∀ (ctx ctx' : Context) (numbers' : List Int), ctx.node = ctx'.node →
      ctx.staticInts 1 = .ok numbers → ctx'.staticInts 1 = .ok numbers' →
      (∀ a ∈ numbers', NamesAxis type.shape.length a) →
      (∀ axis, axis ∈ axesAt type.shape.length numbers ↔ axis ∈ axesAt type.shape.length numbers') →
      Rule.reduce mean ctx ws g = Rule.reduce mean ctx' ws g) ∧
    (∀ ctx keep, ReadsNumbers ctx ws g x type numbers →
      ctx.node.boolOr "keep_dims" false = .ok keep →
      ∃ y h axes,
        Rule.reduce mean ctx ws g =
          .ok (some y :: List.replicate (ctx.node.outputs - 1) none) h ∧
        axes.Pairwise (· < ·) ∧
        (∀ axis, axis ∈ axes ↔ axis ∈ axesAt type.shape.length numbers) ∧
        h.nodes[g.size]? = some ⟨g.size, .sum axes, [x],
          ⟨type.element, withoutAxes (axesAt type.shape.length numbers) type.shape⟩⟩ ∧
        h.type? y = some ⟨type.element,
          if keep then withUnitAxes (axesAt type.shape.length numbers) type.shape
          else withoutAxes (axesAt type.shape.length numbers) type.shape⟩) ∧
    (numbers ≠ [] → ∀ kept dropped : Context,
      ReadsNumbers kept ws g x type numbers → kept.node.boolOr "keep_dims" false = .ok true →
      ReadsNumbers dropped ws g x type numbers →
      dropped.node.boolOr "keep_dims" false = .ok false →
      ∃ y h z k,
        Rule.reduce mean kept ws g =
          .ok (some y :: List.replicate (kept.node.outputs - 1) none) h ∧
        Rule.reduce mean dropped ws g =
          .ok (some z :: List.replicate (dropped.node.outputs - 1) none) k ∧
        ∀ ctx ws' type', SqueezeReads ctx ws' h y type' numbers →
          ∃ h', Rule.squeeze ctx ws' h =
              .ok (some h.size :: List.replicate (ctx.node.outputs - 1) none) h' ∧
            h'.size = h.size + 1 ∧ h'.type? h.size = k.type? z) := by
  refine ⟨?_, ?_, ?_⟩
  · intro ctx ctx' numbers' hnode hnumbers hnumbers' hnames' hsame
    refine reduce_congr mean hnode hoperand hx ?_
    rw [reductionAxes_of_names hnumbers hnames, reductionAxes_of_names hnumbers' hnames',
      namedAxes_congr hnames hnames' hsame]
  · intro ctx keep hreads hkeep
    refine ⟨_, _, namedAxes numbers type.shape.length, reduce_run mean (hreads.reduction hnames hkeep),
      List.pairwise_lt_range.filter _, fun _ => mem_namedAxes hnames, ?_,
      type?_reduced mean g x keep hnames⟩
    have hsum : (sumArena g x numbers type).nodes[g.size]? = _ := g.node_push_self _ _ _
    rw [sumType, sizesOff_congr _ fun _ => mem_namedAxes hnames] at hsum
    exact sumArena_le mean g x numbers type keep _ _ hsum
  · intro hsome kept dropped hkept hkeep hdropped hdrop
    refine ⟨_, _, _, _, reduce_run mean (hkept.reduction hnames hkeep),
      reduce_run mean (hdropped.reduction hnames hdrop), ?_⟩
    intro ctx ws' type' hreads
    obtain rfl := Option.some.inj (hreads.typed.symm.trans (type?_reduced mean g x true hnames))
    refine ⟨_, squeeze_withUnitAxes hnames hsome hreads, Graph.size_push _ _ _ _, ?_⟩
    rw [type?_reduced mean g x false hnames]
    exact Graph.type?_push_self _ _ _ _

/-- A squeeze of the axes that numbers name. -/
def squeezeBy (numbers : List Int) : Context :=
  ⟨{ name := "q", op := "Squeeze", index := 2, inputs := 1, inEdges := [0],
     attrs := NameTable.empty.insert "squeeze_dims" (.ints numbers) },
    { nodes := #[], edges := #[] }, []⟩

/-- The last two of three axes, named twice and from the end or once and in the other order: the means
are the same, keep two axes of size one, and lose them to a squeeze by the first list. -/
theorem lastTwoAxes_kept_and_squeezed :
    Rule.reduce true (meanAlong [1, -1, 1] true) [0] (.ofParameters [⟨.f32, [2, 3, 4]⟩]) =
      Rule.reduce true (meanAlong [2, 1] true) [0] (.ofParameters [⟨.f32, [2, 3, 4]⟩]) ∧
    ∃ y h z k h',
      Rule.reduce true (meanAlong [1, -1, 1] true) [0] (.ofParameters [⟨.f32, [2, 3, 4]⟩]) =
        .ok [some y] h ∧
      h.type? y = some ⟨.f32, [2, 1, 1]⟩ ∧
      Rule.reduce true (meanAlong [1, -1, 1] false) [0] (.ofParameters [⟨.f32, [2, 3, 4]⟩]) =
        .ok [some z] k ∧
      k.type? z = some ⟨.f32, [2]⟩ ∧
      Rule.squeeze (squeezeBy [1, -1, 1]) [y] h = .ok [some h.size] h' ∧
      h'.type? h.size = some ⟨.f32, [2]⟩ := by
  have hreads : ∀ keep, ReadsNumbers (meanAlong [1, -1, 1] keep) [0] (.ofParameters [⟨.f32, [2, 3, 4]⟩])
      0 ⟨.f32, [2, 3, 4]⟩ [1, -1, 1] :=
    fun _ => ⟨rfl, Nat.zero_lt_one, rfl, rfl, rfl⟩
  have hnames : ∀ a ∈ ([1, -1, 1] : List Int), NamesAxis 3 a := by decide
  obtain ⟨hsame, htyped, hsqueezed⟩ :=
    reductions_depend_on_axes true (hreads true).operand (hreads true).typed hnames
  have haxes : ∀ axis, axis ∈ axesAt 3 [1, -1, 1] ↔ axis ∈ axesAt 3 [2, 1] := by
    intro axis
    change axis ∈ [1, 2, 1] ↔ axis ∈ [2, 1]
    simp only [List.mem_cons, List.not_mem_nil, or_false]
    omega
  refine ⟨hsame _ _ [2, 1] rfl rfl rfl (by decide) haxes, ?_⟩
  obtain ⟨y, h, z, k, hkept, hdropped, hsqueeze⟩ :=
    hsqueezed (by decide) _ _ (hreads true) rfl (hreads false) rfl
  obtain ⟨y', h₁, -, hrun, -, -, -, htype⟩ := htyped _ true (hreads true) rfl
  obtain ⟨z', k₁, -, hrun', -, -, -, htype'⟩ := htyped _ false (hreads false) rfl
  obtain ⟨hy, rfl⟩ := EStateM.Result.ok.inj (hkept.symm.trans hrun)
  obtain ⟨hz, rfl⟩ := EStateM.Result.ok.inj (hdropped.symm.trans hrun')
  obtain rfl := Option.some.inj (List.cons.inj hy).1
  obtain rfl := Option.some.inj (List.cons.inj hz).1
  obtain ⟨h', hrun, -, hshape⟩ :=
    hsqueeze (squeezeBy [1, -1, 1]) [y] _ ⟨rfl, Nat.zero_lt_one, rfl, htype, rfl⟩
  exact ⟨y, h, z, k, h', hkept, htype, hdropped, htype', hrun, hshape.trans htype'⟩

end GraphLowering
