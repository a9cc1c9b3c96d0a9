import Mathlib
import GraphLowering.Proofs.AxisNumbers
import GraphLowering.Proofs.Layouts
import GraphLowering.Proofs.WindowRuns

/-!
# Transposition

The axes of a tensor are put into an order that a list of numbers names. The list is accepted just if
it names every axis once. The result is one node, and a transposition by the inverse order leads back.
What is refused is refused before the elements are counted: a list of distinct axes, as many as there
are, is a permutation of them, and permuting the axes changes no product.

* `isPermutation_iff_perm` — the test of the arena accepts the permutations.
* `inverseOrder` — the inverse of an order, with `permuted_inverseOrder` and `inverseOrder_permuted`.
* `NamesPermutation` — the lists that name every axis once.
* `transpose_of_permutation`, `transpose_of_not_permutation` — what the rule makes of a list.
* `transpose_accepts_permutations` — when a transposition is lowered, and to what.
-/

namespace GraphLowering

open Target

/-! ### Orders of axes and their inverses -/

/-- Marking the entries of an order one by one finds out whether it is a permutation. -/
theorem isPermutation_iff_perm {order : List Nat} {rank : Nat} :
    isPermutation order rank = true ↔ order.Perm (List.range rank) := by
  constructor
  · exact perm_range_of_isPermutation
  · intro h
    refine isPermutation_iff.mpr ⟨?_, ?_, ?_⟩
    · rw [h.length_eq, List.length_range]
    · exact h.nodup_iff.mpr List.nodup_range
    · intro axis haxis
      exact List.mem_range.mp (h.mem_iff.mp haxis)

/-- The inverse of an order of axes: the place of each axis in the order. -/
def inverseOrder (order : List Nat) : List Nat := (List.range order.length).map order.idxOf

@[simp] theorem length_inverseOrder (order : List Nat) :
    (inverseOrder order).length = order.length := by
  simp [inverseOrder]

section Inverse

variable {order : List Nat} {rank : Nat} (h : order.Perm (List.range rank))
include h

theorem length_of_perm_range : order.length = rank := by
  rw [h.length_eq, List.length_range]

theorem mem_of_lt_rank {axis : Nat} (haxis : axis < rank) : axis ∈ order :=
  h.mem_iff.mpr (List.mem_range.mpr haxis)

/-- Reading an order at the places of its inverse gives the axes in their order. -/
theorem permuted_inverseOrder : permuted (inverseOrder order) order = List.range rank := by
  rw [permuted, inverseOrder, List.map_map, length_of_perm_range h]
  nth_rewrite 2 [← List.map_id (List.range rank)]
  refine List.map_congr_left fun axis haxis => ?_
  have hplace : order.idxOf axis < order.length :=
    List.idxOf_lt_length_of_mem (mem_of_lt_rank h (List.mem_range.mp haxis))
  show order.getD (order.idxOf axis) 0 = axis
  rw [List.getD_eq_getElem _ _ hplace, List.getElem_idxOf hplace]

/-- Reading the inverse of an order at the axes of the order gives them in their order as well. -/
theorem inverseOrder_permuted : permuted order (inverseOrder order) = List.range rank := by
  have hnodup : order.Nodup := h.nodup_iff.mpr List.nodup_range
  have hlength := length_of_perm_range h
  refine List.ext_getElem (by simp [permuted, hlength]) fun d hd _ => ?_
  have hd' : d < order.length := by simpa [permuted] using hd
  have haxis : order[d] < (inverseOrder order).length := by
    rw [length_inverseOrder, hlength]
    exact List.mem_range.mp (h.mem_iff.mp (List.getElem_mem hd'))
  simp only [permuted, List.getElem_map, List.getElem_range]
  rw [List.getD_eq_getElem _ _ haxis]
  simp [inverseOrder, hnodup.idxOf_getElem d hd']

theorem isPermutation_inverseOrder : isPermutation (inverseOrder order) rank = true := by
  have hlength := length_of_perm_range h
  refine isPermutation_iff.mpr ⟨by rw [length_inverseOrder, hlength], ?_, ?_⟩
  · refine List.Nodup.map_on ?_ List.nodup_range
    intro axis haxis axis' _ heq
    rw [hlength, List.mem_range] at haxis
    exact (List.idxOf_inj (mem_of_lt_rank h haxis)).mp heq
  · intro place hplace
    obtain ⟨axis, haxis, rfl⟩ := List.mem_map.mp hplace
    rw [hlength, List.mem_range] at haxis
    rw [← hlength]
    exact List.idxOf_lt_length_of_mem (mem_of_lt_rank h haxis)

end Inverse

/-- Permuting twice is permuting by the composed order. -/
theorem permuted_permuted {first second : List Nat} (shape : Shape)
    (h : ∀ d ∈ second, d < first.length) :
    permuted second (permuted first shape) = permuted (permuted second first) shape := by
  simp only [permuted, List.map_map]
  refine List.map_congr_left fun d hd => ?_
  have hd' := h d hd
  simp [hd']

theorem permuted_inverse_back {order : List Nat} {shape : Shape}
    (h : order.Perm (List.range shape.length)) :
    permuted (inverseOrder order) (permuted order shape) = shape := by
  have hlt : ∀ d ∈ inverseOrder order, d < order.length := by
    intro d hd
    rw [length_of_perm_range h]
    exact (isPermutation_iff.mp (isPermutation_inverseOrder h)).2.2 d hd
  rw [permuted_permuted shape hlt, permuted_inverseOrder h, permuted_range]

/-! ### The rule -/

/-- Numbers name each of `rank` axes once. -/
structure NamesPermutation (rank : Nat) (numbers : List Int) : Prop where
  length : numbers.length = rank
  names : ∀ a ∈ numbers, NamesAxis rank a
  distinct : (axesAt rank numbers).Nodup

theorem namesPermutation_iff {rank : Nat} {numbers : List Int} :
    NamesPermutation rank numbers ↔ numbers.length = rank ∧ (∀ a ∈ numbers, NamesAxis rank a) ∧
      isPermutation (axesAt rank numbers) rank = true := by
  rw [isPermutation_iff, length_axesAt]
  constructor
  · rintro ⟨hlength, hnames, hdistinct⟩
    exact ⟨hlength, hnames, hlength, hdistinct, fun _ => lt_of_mem_axesAt hnames⟩
  · rintro ⟨hlength, hnames, -, hdistinct, -⟩
    exact ⟨hlength, hnames, hdistinct⟩

section Rule

variable {ctx : Context} {ws : List Wire} {g : Graph} {x : Wire} {type : TensorType}
  {numbers : List Int}

/-- An order that is no permutation is refused by the arena. -/
theorem transposed_refused (ctx : Context) {order : List Nat} (hx : g.type? x = some type)
    (hlt : ∀ axis ∈ order, axis < type.shape.length)
    (horder : ¬ isPermutation order type.shape.length = true) :
    transposed ctx x order g = .error (.mismatch (.notPermutation order type.shape.length)) g := by
  have hinfer : g.infer (.reshape order (permuted order type.shape)) [x] =
      .error (.mismatch (.notPermutation order type.shape.length)) := by
    rw [Graph.infer_of_types (Graph.types_one hx)]
    simp only [Op.infer, oneOperand, except_ok_bind]
    rw [if_pos horder]
    rfl
  rw [transposed, Step.bind_of_ok (shapeOf_of_type? hx), mapM_getElem?_permuted hlt]
  show emit (.reshape order (permuted order type.shape)) [x] g = _
  rw [emit_eq, hinfer]

/-- The order that a list of numbers asks for. -/
def requestedOrder (ctx : Context) (numbers : List Int) (rank : Nat) : Except Error (List Nat) :=
  if numbers.length ≠ rank then .error (ctx.refuse (.permutationRank numbers rank))
  else numbers.mapM fun a => ctx.axis a rank

/-- The last part of the rule: with its order, the node is appended. -/
def transposeBy (ctx : Context) (x : Wire) (order : Except Error (List Nat)) : Emit Outputs := do
  let order ← order
  ctx.output (← transposed ctx x order)

variable (hreads : ReadsNumbers ctx ws g x type numbers)
include hreads

theorem transpose_eq :
    Rule.transpose ctx ws g =
      transposeBy ctx x (requestedOrder ctx numbers type.shape.length) g := by
  rw [Rule.transpose, Context.needInputs_run hreads.inputs,
    Step.lift_bind_of_ok hreads.numbersOf, Step.lift_bind_of_ok (entryAt_eq_ok hreads.operand),
    Step.bind_of_ok (shapeOf_of_type? hreads.typed), requestedOrder]
  dsimp only
  split
  · rfl
  · rw [Twin.mapM_lift]
    rfl

/-- The arena after a transposition. -/
theorem transpose_of_permutation (h : NamesPermutation type.shape.length numbers) :
    Rule.transpose ctx ws g =
      .ok (some g.size :: List.replicate (ctx.node.outputs - 1) none)
        (g.push (.reshape (axesAt type.shape.length numbers)
          (permuted (axesAt type.shape.length numbers) type.shape)) [x]
          ⟨type.element, permuted (axesAt type.shape.length numbers) type.shape⟩) := by
  obtain ⟨hlength, hnames, horder⟩ := namesPermutation_iff.mp h
  have hrequest : requestedOrder ctx numbers type.shape.length =
      .ok (axesAt type.shape.length numbers) := by
    rw [requestedOrder, if_neg (not_not.mpr hlength), mapM_axis_of_names ctx hnames]
  rw [transpose_eq hreads, transposeBy, Step.lift_bind_of_ok hrequest,
    Step.bind_of_ok (transposed_run ctx hreads.typed horder)]
  exact Context.output_run hreads.slots _ _

/-- A list is refused for its length, for a number that names no axis, or because an axis is named
twice. -/
theorem transpose_of_not_permutation (h : ¬ NamesPermutation type.shape.length numbers) :
    ∃ e, Rule.transpose ctx ws g = .error e g ∧
      (e = ctx.refuse (.permutationRank numbers type.shape.length) ∨
        (∃ a ∈ numbers, ¬ NamesAxis type.shape.length a ∧
          e = ctx.refuse (.axisRange a type.shape.length)) ∨
        e = .mismatch (.notPermutation (axesAt type.shape.length numbers) type.shape.length)) := by
  rw [transpose_eq hreads, requestedOrder]
  split
  case isTrue => exact ⟨_, rfl, .inl rfl⟩
  case isFalse hlength =>
    by_cases hnames : ∀ a ∈ numbers, NamesAxis type.shape.length a
    · have horder : ¬ isPermutation (axesAt type.shape.length numbers) type.shape.length = true :=
        fun horder => h (namesPermutation_iff.mpr ⟨not_not.mp hlength, hnames, horder⟩)
      have hrefused := transposed_refused ctx hreads.typed (fun _ => lt_of_mem_axesAt hnames) horder
      rw [mapM_axis_of_names ctx hnames, transposeBy, Step.lift_bind_of_ok rfl,
        Step.bind_of_error hrefused]
      exact ⟨_, rfl, .inr (.inr rfl)⟩
    · obtain ⟨a, ha, hunnamed, hrun⟩ := mapM_axis_of_not_names ctx hnames
      rw [hrun]
      exact ⟨_, rfl, .inr (.inl ⟨a, ha, hunnamed, rfl⟩)⟩

end Rule

/-- Where the list names the inverse of an order, transposing by it leads back. -/
theorem transpose_back {ctx : Context} {ws : List Wire} {h : Graph} {y : Wire} {type : TensorType}
    {order : List Nat} {numbers : List Int} (horder : order.Perm (List.range type.shape.length))
    (hreads : ReadsNumbers ctx ws h y ⟨type.element, permuted order type.shape⟩ numbers)
    (hnames : ∀ a ∈ numbers, NamesAxis type.shape.length a)
    (hinverse : axesAt type.shape.length numbers = inverseOrder order) :
    Rule.transpose ctx ws h =
      .ok (some h.size :: List.replicate (ctx.node.outputs - 1) none)
        (h.push (.reshape (inverseOrder order) type.shape) [y] type) := by
  have hlength : (permuted order type.shape).length = type.shape.length := by
    rw [permuted, List.length_map, length_of_perm_range horder]
  have hnumbers : NamesPermutation type.shape.length numbers := by
    refine namesPermutation_iff.mpr ⟨?_, hnames, ?_⟩
    · have hlen := congrArg List.length hinverse
      rwa [length_axesAt, length_inverseOrder, length_of_perm_range horder] at hlen
    · rw [hinverse]
      exact isPermutation_inverseOrder horder
  have hrun := transpose_of_permutation hreads (by rw [hlength]; exact hnumbers)
  dsimp only at hrun
  rwa [hlength, hinverse, permuted_inverse_back horder] at hrun

/-- **Transposition accepts exactly the permutations.** A transposition that finds its operand and
reads a list of numbers is lowered just if the list has one number for each axis, every number names
an axis, and no axis is named twice. It then appends one node, whose order is the permutation and whose
shape has, at each place, the size of the axis that the order lists there. Every transposition of the
result by a list that names the inverse order succeeds as well and gives the first shape back; the two
orders compose to the identity. The test of the arena accepts the permutations of the axes and nothing
else, and then the elements are as many, so that no transposition is refused for their number: it is
refused for the length of its list, for a number that names no axis, or by that test, and leaves the
arena as it was. -/
theorem transpose_accepts_permutations {ctx : Context} {ws : List Wire} {g : Graph} {x : Wire}
    {type : TensorType} {numbers : List Int} (hreads : ReadsNumbers ctx ws g x type numbers) :
    ((∃ outputs h, Rule.transpose ctx ws g = .ok outputs h) ↔
      NamesPermutation type.shape.length numbers) ∧
    (∀ outputs h, Rule.transpose ctx ws g = .ok outputs h →
      ∃ order shape, order = axesAt type.shape.length numbers ∧
        order.Perm (List.range type.shape.length) ∧
        outputs = some g.size :: List.replicate (ctx.node.outputs - 1) none ∧
        h = g.push (.reshape order shape) [x] ⟨type.element, shape⟩ ∧
        shape.length = type.shape.length ∧
        (∀ d axis : Nat, order[d]? = some axis → shape[d]? = type.shape[axis]?) ∧
        permuted (inverseOrder order) order = List.range type.shape.length ∧
        permuted order (inverseOrder order) = List.range type.shape.length ∧
        ∀ ctx' ws' numbers', ReadsNumbers ctx' ws' h g.size ⟨type.element, shape⟩ numbers' →
          (∀ a ∈ numbers', NamesAxis type.shape.length a) →
          axesAt type.shape.length numbers' = inverseOrder order →
          Rule.transpose ctx' ws' h =
            .ok (some h.size :: List.replicate (ctx'.node.outputs - 1) none)
              (h.push (.reshape (inverseOrder order) type.shape) [g.size] type)) ∧
    (∀ order rank, isPermutation order rank = true ↔ order.Perm (List.range rank)) ∧
    (∀ order, isPermutation order type.shape.length = true →
      (permuted order type.shape).elements = type.shape.elements) ∧
    ∀ e h, Rule.transpose ctx ws g = .error e h → h = g ∧
      (e = ctx.refuse (.permutationRank numbers type.shape.length) ∨
        (∃ a ∈ numbers, ¬ NamesAxis type.shape.length a ∧
          e = ctx.refuse (.axisRange a type.shape.length)) ∨
        e = .mismatch (.notPermutation (axesAt type.shape.length numbers) type.shape.length)) := by
  by_cases hnumbers : NamesPermutation type.shape.length numbers
  · have horder := isPermutation_iff_perm.mp (namesPermutation_iff.mp hnumbers).2.2
    rw [transpose_of_permutation hreads hnumbers]
    refine ⟨iff_of_true ⟨_, _, rfl⟩ hnumbers, ?_, fun _ _ => isPermutation_iff_perm,
      fun _ => elements_permuted, nofun⟩
    intro outputs h hrun
    obtain ⟨rfl, rfl⟩ := EStateM.Result.ok.inj hrun
    refine ⟨_, _, rfl, horder, rfl, rfl, ?_, ?_, permuted_inverseOrder horder,
      inverseOrder_permuted horder, fun _ _ _ => transpose_back horder⟩
    · rw [permuted, List.length_map, length_of_perm_range horder]
    · intro d axis haxis
      have hlt := List.mem_range.mp (horder.mem_iff.mp (List.mem_of_getElem? haxis))
      rw [permuted, List.getElem?_map, haxis, Option.map_some, List.getElem?_eq_getElem hlt,
        List.getD_eq_getElem _ _ hlt]
  · obtain ⟨e, herror, hcause⟩ := transpose_of_not_permutation hreads hnumbers
    rw [herror]
    refine ⟨iff_of_false nofun hnumbers, nofun, fun _ _ => isPermutation_iff_perm,
      fun _ => elements_permuted, ?_⟩
    intro e' h hrun
    obtain ⟨rfl, rfl⟩ := EStateM.Result.error.inj hrun
    exact ⟨rfl, hcause⟩

/-- A transposition by a constant list of numbers. -/
def transposeTo (numbers : List Int) : Context :=
  .fedByConstant { name := "t", op := "Transpose" } 1 numbers

/-- An arena that holds a tensor with three axes. -/
def cuboid : Graph := .ofParameters [⟨.f32, [2, 3, 4]⟩]

/-- The last axis is brought to the front and back again; a list that names an axis twice, from both
ends, is refused. -/
theorem cuboid_transposed_and_back :
    (∃ outputs h, Rule.transpose (transposeTo [-1, 0, 1]) [0] cuboid = .ok outputs h ∧
      h.type? 1 = some ⟨.f32, [4, 2, 3]⟩ ∧
      ∃ outputs' h', Rule.transpose (transposeTo [1, -1, 0]) [1] h = .ok outputs' h' ∧
        h'.type? 2 = some ⟨.f32, [2, 3, 4]⟩) ∧
    ¬ ∃ outputs h, Rule.transpose (transposeTo [0, 1, -2]) [0] cuboid = .ok outputs h := by
  have hreads : ∀ numbers, (transposeTo numbers).staticInts 1 = .ok numbers →
      ReadsNumbers (transposeTo numbers) [0] cuboid 0 ⟨.f32, [2, 3, 4]⟩ numbers :=
    fun numbers hnumbers => ⟨rfl, Nat.one_pos, rfl, rfl, hnumbers⟩
  constructor
  · have hpermutes := transpose_accepts_permutations (hreads [-1, 0, 1] rfl)
    obtain ⟨outputs, h, hrun⟩ := hpermutes.1.mpr ⟨rfl, by decide, by decide⟩
    obtain ⟨order, shape, rfl, -, -, rfl, -, -, -, -, hback⟩ := hpermutes.2.1 outputs h hrun
    cases hrun
    refine ⟨_, _, rfl, rfl, _, _, hback (transposeTo [1, -1, 0]) [1] [1, -1, 0] ?_ ?_ ?_, rfl⟩
    · exact ⟨rfl, Nat.one_pos, rfl, rfl, rfl⟩
    · decide
    · decide
  · rw [(transpose_accepts_permutations (hreads [0, 1, -2] rfl)).1]
    intro hnames
    have hdistinct : ¬ (axesAt 3 [0, 1, -2]).Nodup := by decide
    exact hdistinct hnames.distinct

end GraphLowering
