import Mathlib
import GraphLowering.Proofs.AxisNumbers
import GraphLowering.Proofs.ReshapeTargets
import GraphLowering.Proofs.WholeNumbers

/-!
# The divisor of a mean

The mean along some axes is lowered to a sum along them, divided by a constant in which every element
is the number of elements that went into the sum. That number is rounded to a floating-point word on
its way to the element type. So in a tensor of integers the divisor is the number just if the type and
the word both hold it, or if it is the greatest of the type; otherwise the mean is divided by another
number.

* `namedAxes`, `reducedCount` — the axes that a list of numbers names, and the elements along them.
* `reductionAxes_eq_ok`, `elementsAlong_eq` — the rule finds both.
* `reducedCount_mul_elements` — every element of the sum stands for that many elements.
* `reduce_mean_run` — the nodes of a mean, which are always appended.
* `mean_divisor_exact` — when the divisor is the number of elements.
-/

namespace GraphLowering

open Target

/-- The axes of a tensor that a list of numbers names, in increasing order and each once. A negative
number counts from the end. -/
def namedAxes (numbers : List Int) (rank : Nat) : List Nat :=
  (List.range rank).filter fun axis => ∃ a ∈ numbers, a = axis ∨ a + rank = axis

/-- The number of elements along the named axes. -/
def reducedCount (numbers : List Int) (shape : Shape) : Nat :=
  ((namedAxes numbers shape.length).map fun axis => shape.getD axis 0).prod

/-! ### Axes -/

theorem lt_of_mem_namedAxes {numbers : List Int} {rank axis : Nat}
    (h : axis ∈ namedAxes numbers rank) : axis < rank :=
  List.mem_range.mp (List.mem_filter.mp h).1

theorem nodup_namedAxes (numbers : List Int) (rank : Nat) : (namedAxes numbers rank).Nodup :=
  List.nodup_range.filter _

/-- The named axes are, in their order, the axes that are among them. -/
theorem namedAxes_eq_filter (numbers : List Int) (rank : Nat) :
    namedAxes numbers rank =
      (List.range rank).filter fun axis => axis ∈ namedAxes numbers rank := by
  refine List.filter_congr fun axis haxis => ?_
  simp [namedAxes, List.mem_range.mp haxis]

/-- The axes that a reduction finds are those that its numbers name. -/
theorem reductionAxes_eq_ok {ctx : Context} {rank : Nat} {axes : List Nat}
    (h : reductionAxes ctx rank = .ok axes) :
    ∃ numbers, ctx.staticInts 1 = .ok numbers ∧ axes = namedAxes numbers rank := by
  rw [reductionAxes_eq_filter] at h
  obtain ⟨numbers, hnumbers, h⟩ := except_bind_eq_ok.mp h
  obtain ⟨found, hfound, h⟩ := except_bind_eq_ok.mp h
  obtain rfl := Except.ok.inj h
  have hfound := except_mapM_eq_ok.mp hfound
  refine ⟨numbers, hnumbers, List.filter_congr fun axis haxis => ?_⟩
  rw [Bool.eq_iff_iff, List.contains_iff_mem, decide_eq_true_iff]
  constructor
  · intro hmem
    obtain ⟨a, ha, h⟩ := forall₂_exists_left hfound hmem
    exact ⟨a, ha, (Context.axis_eq_ok.mp h).2⟩
  · rintro ⟨a, ha, hnames⟩
    obtain ⟨axis', hmem, h⟩ := forall₂_exists_right hfound ha
    have h' : ctx.axis a rank = .ok axis :=
      Context.axis_eq_ok.mpr ⟨List.mem_range.mp haxis, hnames⟩
    obtain rfl := Except.ok.inj (h.symm.trans h')
    exact hmem

/-! ### Elements along axes and off them -/

theorem elements_eq_prod (shape : Shape) : shape.elements = List.prod shape :=
  List.prod_eq_foldr.symm

theorem zipIdx_eq_map_range (shape : Shape) :
    shape.zipIdx = (List.range shape.length).map fun axis => (shape.getD axis 0, axis) := by
  refine List.ext_getElem (by simp) fun axis _ hrange => ?_
  have hlt : axis < shape.length := by simpa using hrange
  simp [hlt]

theorem elementsAlong_eq {axes : List Nat} {shape : Shape}
    (h : ∀ axis ∈ axes, axis < shape.length) :
    elementsAlong axes shape = .ok (axes.map fun axis => shape.getD axis 0).prod := by
  have hsizes : axes.mapM (fun axis => entryAt shape axis) =
      .ok (axes.map fun axis => shape.getD axis 0) := by
    refine except_mapM_eq_ok.mpr (List.forall₂_map_right_iff.mpr (List.forall₂_same.mpr ?_))
    intro axis haxis
    rw [entryAt_eq_ok_iff, List.getElem?_eq_getElem (h axis haxis), List.getD_eq_getElem]
  rw [elementsAlong, hsizes, except_ok_bind, elements_eq_prod]
  rfl

theorem elementsAlong_namedAxes (numbers : List Int) (shape : Shape) :
    elementsAlong (namedAxes numbers shape.length) shape = .ok (reducedCount numbers shape) :=
  elementsAlong_eq fun _ => lt_of_mem_namedAxes

theorem sizesOff_eq (axes : List Nat) (shape : Shape) :
    sizesOff axes shape = ((List.range shape.length).filter fun axis => axis ∉ axes).map
      fun axis => shape.getD axis 0 := by
  rw [sizesOff, zipIdx_eq_map_range, List.filter_map, List.map_map]
  refine congrArg _ (List.filter_congr fun axis _ => ?_)
  simp

theorem unitSizes_eq (axes : List Nat) (shape : Shape) :
    unitSizes axes shape =
      (List.range shape.length).map fun axis => if axis ∈ axes then 1 else shape.getD axis 0 := by
  rw [unitSizes, zipIdx_eq_map_range, List.map_map]
  refine List.map_congr_left fun axis _ => ?_
  simp

/-- Setting axes to one leaves as many elements as taking them away. -/
theorem elements_unitSizes (axes : List Nat) (shape : Shape) :
    (unitSizes axes shape).elements = (sizesOff axes shape).elements := by
  rw [unitSizes_eq, sizesOff_eq, elements_eq_prod, elements_eq_prod, List.prod_map_ite]
  simp

/-- Every element of the result stands for as many elements of the operand. -/
theorem reducedCount_mul_elements (numbers : List Int) (shape : Shape) :
    reducedCount numbers shape * (sizesOff (namedAxes numbers shape.length) shape).elements =
      shape.elements := by
  rw [reducedCount, sizesOff_eq, elements_eq_prod, elements_eq_prod]
  nth_rewrite 1 [namedAxes_eq_filter]
  rw [List.prod_map_filter_mul_prod_map_filter_not, getD_range]

/-! ### The nodes of a mean -/

theorem infer_sum {type : TensorType} {axes : List Nat}
    (haxes : axes.Nodup ∧ axes.all (· < type.shape.length)) :
    (Op.sum axes).infer [type] = .ok ⟨type.element, sizesOff axes type.shape⟩ := by
  simp only [Op.infer, oneOperand, except_ok_bind, checkAxes]
  rw [if_pos haxes]
  rfl

/-- The type of a sum along the named axes. -/
def sumType (numbers : List Int) (type : TensorType) : TensorType :=
  ⟨type.element, sizesOff (namedAxes numbers type.shape.length) type.shape⟩

theorem infer_namedSum (numbers : List Int) (type : TensorType) :
    (Op.sum (namedAxes numbers type.shape.length)).infer [type] = .ok (sumType numbers type) := by
  refine infer_sum ⟨nodup_namedAxes numbers _, List.all_eq_true.mpr fun axis haxis => ?_⟩
  exact decide_eq_true (lt_of_mem_namedAxes haxis)

/-- The divisor of a mean: a number in every place of the sum. -/
def divisorOf (numbers : List Int) (type : TensorType) : Tensor :=
  .filled (sumType numbers type).element (sumType numbers type).shape
    (.ofInt .double (reducedCount numbers type.shape))

@[simp] theorem type_divisorOf (numbers : List Int) (type : TensorType) :
    (divisorOf numbers type).type = type.element :=
  Elements.type_replicate _ _ _

@[simp] theorem shape_divisorOf (numbers : List Int) (type : TensorType) :
    (divisorOf numbers type).shape = (sumType numbers type).shape := rfl

section Arena

variable (g : Graph) (x : Wire) (numbers : List Int) (type : TensorType)

/-- The arena with the sum along the named axes. -/
def sumArena : Graph :=
  g.push (.sum (namedAxes numbers type.shape.length)) [x] (sumType numbers type)

/-- The arena with the sum and the divisor. -/
def divisorArena : Graph :=
  (sumArena g x numbers type).push (.constant (divisorOf numbers type)) [] (sumType numbers type)

/-- The arena with the sum, the divisor and their quotient. -/
def quotientArena : Graph :=
  (divisorArena g x numbers type).push (.binary .divide) [g.size, g.size + 1] (sumType numbers type)

/-- The arena after a mean. Axes that stay are put back by a reshape. -/
def meanArena (keep : Bool) : Graph :=
  if keep then
    (quotientArena g x numbers type).push
      (.reshape (List.range (sumType numbers type).shape.length)
        (unitSizes (namedAxes numbers type.shape.length) type.shape)) [g.size + 2]
      ⟨type.element, unitSizes (namedAxes numbers type.shape.length) type.shape⟩
  else quotientArena g x numbers type

@[simp] theorem size_sumArena : (sumArena g x numbers type).size = g.size + 1 :=
  Graph.size_push _ _ _ _

@[simp] theorem size_divisorArena : (divisorArena g x numbers type).size = g.size + 2 := by
  rw [divisorArena, Graph.size_push, size_sumArena]

@[simp] theorem size_quotientArena : (quotientArena g x numbers type).size = g.size + 3 := by
  rw [quotientArena, Graph.size_push, size_divisorArena]

theorem emit_divisor : emitConstant (divisorOf numbers type) (sumArena g x numbers type) =
    .ok (g.size + 1) (divisorArena g x numbers type) := by
  have htype : (⟨(divisorOf numbers type).type, (divisorOf numbers type).shape⟩ : TensorType) =
      sumType numbers type := by
    rw [type_divisorOf, shape_divisorOf]
    rfl
  rw [divisorArena, ← size_sumArena g x numbers type, ← htype]
  rfl

theorem emit_quotient : emit (.binary .divide) [g.size, g.size + 1] (divisorArena g x numbers type) =
    .ok (g.size + 2) (quotientArena g x numbers type) := by
  have htotal : (divisorArena g x numbers type).type? g.size = some (sumType numbers type) := by
    have hlt : g.size < (sumArena g x numbers type).size := by
      rw [size_sumArena]
      exact Nat.lt_succ_self _
    rw [divisorArena, Graph.type?_push_of_lt _ _ _ hlt]
    exact g.type?_push_self _ _ _
  have hdivisor : (divisorArena g x numbers type).type? (g.size + 1) =
      some (sumType numbers type) := by
    rw [← size_sumArena g x numbers type]
    exact Graph.type?_push_self _ _ _ _
  rw [emit_of_infer (infer_binary_same .divide htotal hdivisor), size_divisorArena]
  rfl

theorem reshape_quotient :
    reshaped (g.size + 2) (unitSizes (namedAxes numbers type.shape.length) type.shape)
      (quotientArena g x numbers type) = .ok (g.size + 3) (meanArena g x numbers type true) := by
  have hquotient : (quotientArena g x numbers type).type? (g.size + 2) =
      some (sumType numbers type) := by
    rw [← size_divisorArena g x numbers type]
    exact Graph.type?_push_self _ _ _ _
  rw [reshaped_run hquotient (elements_unitSizes _ _).symm, size_quotientArena]
  rfl

end Arena

/-- What a reduction finds at its node and on its operand. -/
structure ReductionReads (ctx : Context) (ws : List Wire) (g : Graph) (x : Wire) (type : TensorType)
    (numbers : List Int) (keep : Bool) : Prop where
  inputs : ctx.node.inputs = 2
  slots : 0 < ctx.node.outputs
  operand : ws[0]? = some x
  typed : g.type? x = some type
  numbersOf : ctx.staticInts 1 = .ok numbers
  axesOf : reductionAxes ctx type.shape.length = .ok (namedAxes numbers type.shape.length)
  keepOf : ctx.node.boolOr "keep_dims" false = .ok keep

section Rule

variable {ctx : Context} {ws : List Wire} {g h : Graph} {x : Wire} {type : TensorType}
  {numbers : List Int} {keep : Bool} {outputs : Outputs}

/-- A mean that succeeds has read a tensor, and numbers that name axes of it. -/
theorem reads_of_reduce (hrun : Rule.reduce true ctx ws g = .ok outputs h) :
    ∃ x type numbers keep, ReductionReads ctx ws g x type numbers keep := by
  obtain ⟨_, hinputs, hrest⟩ := Step.lift_bind_eq_ok.mp hrun
  obtain ⟨x, hoperand, hrest⟩ := Step.lift_bind_eq_ok.mp hrest
  obtain ⟨shape, g', hshape, hrest⟩ := Step.bind_eq_ok.mp hrest
  obtain ⟨type, hx, rfl, -⟩ := exists_type?_of_shapeOf hshape
  obtain ⟨axes, haxes, hrest⟩ := Step.lift_bind_eq_ok.mp hrest
  obtain ⟨keep, hkeep, hrest⟩ := Step.lift_bind_eq_ok.mp hrest
  obtain ⟨total, _, -, hrest⟩ := Step.bind_eq_ok.mp hrest
  obtain ⟨numbers, hnumbers, rfl⟩ := reductionAxes_eq_ok haxes
  -- Whatever it has appended, the rule ends by filling the first output slot.
  have hslots : 0 < ctx.node.outputs := by
    dsimp only at hrest
    rw [if_pos rfl] at hrest
    obtain ⟨_, -, hrest⟩ := Step.lift_bind_eq_ok.mp hrest
    obtain ⟨_, _, -, hrest⟩ := Step.bind_eq_ok.mp hrest
    obtain ⟨_, _, -, hrest⟩ := Step.bind_eq_ok.mp hrest
    obtain ⟨_, _, -, hrest⟩ := Step.bind_eq_ok.mp hrest
    cases keep
    all_goals
      obtain ⟨_, _, -, hrest⟩ := Step.bind_eq_ok.mp hrest
      exact (Context.output_iff.mp (Step.lift_eq_ok.mp hrest).1).1
  exact ⟨x, type, numbers, keep, Context.needInputs_eq_ok.mp hinputs, hslots,
    entryAt_eq_ok_iff.mp hoperand, hx, hnumbers, haxes, hkeep⟩

/-- With what it reads, a mean succeeds, and appends its nodes. -/
theorem reduce_mean_run (hreads : ReductionReads ctx ws g x type numbers keep) :
    Rule.reduce true ctx ws g =
      .ok (some (if keep then g.size + 3 else g.size + 2) ::
        List.replicate (ctx.node.outputs - 1) none) (meanArena g x numbers type keep) := by
  have hsum : emit (.sum (namedAxes numbers type.shape.length)) [x] g = .ok g.size
      (sumArena g x numbers type) :=
    emit_of_type hreads.typed (infer_namedSum numbers type)
  have htotal : (sumArena g x numbers type).type? g.size = some (sumType numbers type) :=
    g.type?_push_self _ _ _
  have hdivisor : emitConstant (.filled (sumType numbers type).element (sumType numbers type).shape
      (.ofInt .double (reducedCount numbers type.shape))) (sumArena g x numbers type) =
      .ok (g.size + 1) (divisorArena g x numbers type) :=
    emit_divisor g x numbers type
  rw [Rule.reduce, Context.needInputs_run hreads.inputs,
    Step.lift_bind_of_ok (entryAt_eq_ok hreads.operand),
    Step.bind_of_ok (shapeOf_of_type? hreads.typed),
    Step.lift_bind_of_ok hreads.axesOf, Step.lift_bind_of_ok hreads.keepOf, Step.bind_of_ok hsum]
  dsimp only
  rw [if_pos rfl,
    Step.lift_bind_of_ok (elementsAlong_namedAxes numbers type.shape),
    Step.bind_of_ok (typeOf_of_type? htotal), Step.bind_of_ok hdivisor,
    Step.bind_of_ok (emit_quotient g x numbers type)]
  cases keep with
  | true =>
    rw [if_pos rfl, Step.bind_of_ok (reshape_quotient g x numbers type)]
    exact Context.output_run hreads.slots _ _
  | false =>
    rw [if_neg Bool.false_ne_true, pure_bind]
    exact Context.output_run hreads.slots _ _

end Rule

/-- The nodes of a mean of the tensor on `x`, from the wire `total` on: the sum, the divisor, their
quotient, and the reshape that puts back axes that stay. The last of them is `result`. -/
structure LoweredMean (h : Graph) (x total result : Wire) (axes : List Nat) (shape : Shape)
    (type : TensorType) (divisor : Tensor) (keep : Bool) : Prop where
  sum : h.nodes[total]? = some ⟨total, .sum axes, [x], type⟩
  constant : h.nodes[total + 1]? = some ⟨total + 1, .constant divisor, [], type⟩
  quotient : h.nodes[total + 2]? = some ⟨total + 2, .binary .divide, [total, total + 1], type⟩
  dropped : keep = false → result = total + 2
  kept : keep = true → result = total + 3 ∧ h.nodes[total + 3]? = some ⟨total + 3,
    .reshape (List.range type.shape.length) (unitSizes axes shape), [total + 2],
    ⟨type.element, unitSizes axes shape⟩⟩

section Nodes

variable (g : Graph) (x : Wire) (numbers : List Int) (type : TensorType)

theorem quotientArena_le (keep : Bool) :
    quotientArena g x numbers type ≤ meanArena g x numbers type keep := by
  cases keep with
  | true => exact Graph.le_push _ _ _ _
  | false => exact le_rfl

theorem loweredMean_meanArena (keep : Bool) :
    LoweredMean (meanArena g x numbers type keep) x g.size
      (if keep then g.size + 3 else g.size + 2) (namedAxes numbers type.shape.length) type.shape
      (sumType numbers type) (divisorOf numbers type) keep := by
  have hquotient := quotientArena_le g x numbers type keep
  have hdivisor : divisorArena g x numbers type ≤ meanArena g x numbers type keep :=
    le_trans (Graph.le_push _ _ _ _) hquotient
  have hsum : sumArena g x numbers type ≤ meanArena g x numbers type keep :=
    le_trans (Graph.le_push _ _ _ _) hdivisor
  refine ⟨hsum _ _ (Graph.node_push_self _ _ _ _), hdivisor _ _ ?_, hquotient _ _ ?_, ?_, ?_⟩
  · rw [← size_sumArena g x numbers type]
    exact Graph.node_push_self _ _ _ _
  · rw [← size_divisorArena g x numbers type]
    exact Graph.node_push_self _ _ _ _
  · rintro rfl
    rfl
  · rintro rfl
    refine ⟨rfl, ?_⟩
    rw [← size_quotientArena g x numbers type]
    exact Graph.node_push_self _ _ _ _

/-- The divisor of integers holds what comes back of the number of elements, in every place. -/
theorem ints?_divisorOf {least greatest : Int}
    (hrange : type.element.intRange? = some (least, greatest)) :
    (divisorOf numbers type).ints? = some (List.replicate (sumType numbers type).shape.elements
      ((Binary.ofInt .double (reducedCount numbers type.shape)).clampToInt least greatest)) :=
  Elements.ints?_replicate hrange _ _

end Nodes

/-- **When the divisor of a mean is the number of elements.** A mean that succeeds is a sum along the
axes that its numbers name, divided by a constant with the shape and the element type of the sum;
every element of the sum stands for the number of elements along these axes. In a tensor of integers
all elements of the constant are that number just if there are none, or if the number is in the range
of the type and a 64-bit floating-point word holds it, or if it is the greatest number of the type. -/
theorem mean_divisor_exact {ctx : Context} {ws : List Wire} {g h : Graph} {outputs : Outputs}
    (hrun : Rule.reduce true ctx ws g = .ok outputs h) :
    ∃ x type numbers keep y divisor,
      ReductionReads ctx ws g x type numbers keep ∧ outputs[0]? = some (some y) ∧
      LoweredMean h x g.size y (namedAxes numbers type.shape.length) type.shape
        (sumType numbers type) divisor keep ∧
      divisor.type = type.element ∧ divisor.shape = (sumType numbers type).shape ∧
      reducedCount numbers type.shape * divisor.shape.elements = type.shape.elements ∧
      ∀ least greatest, type.element.intRange? = some (least, greatest) →
        ∃ values, divisor.ints? = some values ∧ values.length = divisor.shape.elements ∧
          ((∀ value ∈ values, value = reducedCount numbers type.shape) ↔
            divisor.shape.elements = 0 ∨
            (reducedCount numbers type.shape : Int) ≤ greatest ∧
              (HeldExactly (reducedCount numbers type.shape) ∨
                (reducedCount numbers type.shape : Int) = greatest)) := by
  obtain ⟨x, type, numbers, keep, hreads⟩ := reads_of_reduce hrun
  obtain ⟨rfl, rfl⟩ := EStateM.Result.ok.inj (hrun.symm.trans (reduce_mean_run hreads))
  refine ⟨x, type, numbers, keep, _, divisorOf numbers type, hreads, rfl,
    loweredMean_meanArena g x numbers type keep, type_divisorOf numbers type, rfl,
    reducedCount_mul_elements numbers type.shape, fun least greatest hrange => ?_⟩
  refine ⟨_, ints?_divisorOf numbers type hrange, List.length_replicate, ?_⟩
  rw [← ElementType.clampToInt_eq_iff hrange, List.forall_mem_replicate, shape_divisorOf]

/-- A mean along axes that a constant names. -/
def meanAlong (numbers : List Int) (keep : Bool) : Context :=
  .fedByConstant { name := "m", op := "Mean", attrs := ⟨[("keep_dims", .bool keep)]⟩ } 1 numbers

/-- Axes named twice and from the end count once: each of the two sums has twelve elements. -/
theorem repeatedAxes_divisor :
    ∃ outputs h divisor,
      Rule.reduce true (meanAlong [1, -1, 1] true) [0] (.ofParameters [⟨.i32, [2, 3, 4]⟩]) =
        .ok outputs h ∧
      h.nodes[2]? = some ⟨2, .constant divisor, [], ⟨.i32, [2]⟩⟩ ∧
      divisor.ints? = some [12, 12] := by
  have hrun : ∃ outputs h, Rule.reduce true (meanAlong [1, -1, 1] true) [0]
      (.ofParameters [⟨.i32, [2, 3, 4]⟩]) = .ok outputs h := ⟨_, _, rfl⟩
  obtain ⟨outputs, h, hrun⟩ := hrun
  obtain ⟨x, type, numbers, keep, y, divisor, hreads, -, hmean, -, hshape, -, hvalues⟩ :=
    mean_divisor_exact hrun
  obtain rfl := Option.some.inj hreads.operand
  obtain rfl := Option.some.inj hreads.typed
  obtain rfl := Except.ok.inj hreads.numbersOf
  obtain ⟨values, hints, hlength, hexact⟩ := hvalues _ _ rfl
  rw [hshape] at hlength
  have htwelve : ∀ value ∈ values, value = 12 :=
    hexact.mpr (.inr ⟨by decide, .inl (heldExactly_of_lt (by decide))⟩)
  obtain rfl : values = [12, 12] := List.eq_replicate_iff.mpr ⟨hlength, htwelve⟩
  exact ⟨outputs, h, divisor, hrun, hmean.constant, hints⟩

/-- The mean of 200 bytes is divided by 127, and that of `2 ^ 53 + 1` words by one less than their
number. -/
theorem wideMeans_divide_by_less :
    (∃ outputs h divisor,
      Rule.reduce true (meanAlong [0] false) [0] (.ofParameters [⟨.i8, [200]⟩]) = .ok outputs h ∧
      h.nodes[2]? = some ⟨2, .constant divisor, [], ⟨.i8, []⟩⟩ ∧
      h.nodes[3]? = some ⟨3, .binary .divide, [1, 2], ⟨.i8, []⟩⟩ ∧
      divisor.ints? = some [127] ∧ reducedCount [0] [200] = 200) ∧
    ∃ outputs h divisor,
      Rule.reduce true (meanAlong [0] false) [0] (.ofParameters [⟨.i64, [2 ^ 53 + 1]⟩]) =
        .ok outputs h ∧
      h.nodes[2]? = some ⟨2, .constant divisor, [], ⟨.i64, []⟩⟩ ∧
      h.nodes[3]? = some ⟨3, .binary .divide, [1, 2], ⟨.i64, []⟩⟩ ∧
      divisor.ints? = some [2 ^ 53] ∧ reducedCount [0] [2 ^ 53 + 1] = 2 ^ 53 + 1 := by
  exact ⟨⟨_, _, _, rfl, rfl, rfl, by decide +kernel, by decide +kernel⟩,
    ⟨_, _, _, rfl, rfl, rfl, by decide +kernel, by decide +kernel⟩⟩

end GraphLowering
