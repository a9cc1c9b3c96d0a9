import Mathlib
import GraphLowering.Rule.Reduction
import GraphLowering.Proofs.Step

/-!
# Numbers that name axes

An axis is named by its place: a number from 0 on counts from the first axis, and a negative one from
behind the last. Ops read such numbers from a constant or from an attribute, and a number that names
no axis of the tensor is refused.

* `NamesAxis`, `axisAt` — the numbers that name an axis, and the axis.
* `axesAt` — the axes that a list of numbers names, in the order of the list.
* `Context.axis_eq_ok`, `Context.axis_of_names` — what a rule makes of a number.
* `mapM_axis_of_names`, `mapM_axis_of_not_names` — what it makes of a list.
* `withoutRepeats_inOrder`, `reductionAxes_eq_filter` — numbers in order and without repeats are those
  that a list holds, in the order of counting.
* `ReadsNumbers` — a rule with an operand, and numbers on its second input slot.
* `Context.fedByConstant` — contexts in which a rule reads numbers.
-/

namespace GraphLowering

open Target

/-- A number names one of `rank` axes. -/
def NamesAxis (rank : Nat) (a : Int) : Prop := -(rank : Int) ≤ a ∧ a < rank

instance (rank : Nat) (a : Int) : Decidable (NamesAxis rank a) :=
  inferInstanceAs (Decidable (-(rank : Int) ≤ a ∧ a < rank))

/-- The axis that a number names. -/
def axisAt (rank : Nat) (a : Int) : Nat := (if a < 0 then a + rank else a).toNat

/-- The axes that numbers name, in the order of the numbers. -/
def axesAt (rank : Nat) (numbers : List Int) : List Nat := numbers.map (axisAt rank)

section Axes

variable {ctx : Context} {a : Int} {rank axis : Nat} {numbers : List Int}

@[simp] theorem length_axesAt : (axesAt rank numbers).length = numbers.length := List.length_map _

theorem axisAt_lt (h : NamesAxis rank a) : axisAt rank a < rank := by
  unfold NamesAxis at h
  unfold axisAt
  split <;> omega

theorem lt_of_mem_axesAt (h : ∀ a ∈ numbers, NamesAxis rank a) (haxis : axis ∈ axesAt rank numbers) :
    axis < rank := by
  obtain ⟨a, ha, rfl⟩ := List.mem_map.mp haxis
  exact axisAt_lt (h a ha)

theorem Context.axis_eq_ok :
    ctx.axis a rank = .ok axis ↔ axis < rank ∧ (a = axis ∨ a + rank = axis) := by
  have hplace : (if a < 0 then a + rank else a) = (axis : Int) ∧ axis < rank ↔
      axis < rank ∧ (a = axis ∨ a + rank = axis) := by
    split <;> omega
  rw [← hplace]
  unfold Context.axis
  dsimp only
  generalize (if a < 0 then a + (rank : Int) else a) = place
  split
  · rw [Except.ok.injEq]
    omega
  · simp only [reduceCtorEq, false_iff]
    omega

/-- The axis that a number names is the only place that it stands for from one of the two ends. -/
theorem axisAt_eq_iff (h : NamesAxis rank a) (haxis : axis < rank) :
    axisAt rank a = axis ↔ a = axis ∨ a + rank = axis := by
  unfold NamesAxis at h
  unfold axisAt
  split <;> omega

theorem Context.axis_of_names (ctx : Context) (h : NamesAxis rank a) :
    ctx.axis a rank = .ok (axisAt rank a) :=
  Context.axis_eq_ok.mpr ⟨axisAt_lt h, (axisAt_eq_iff h (axisAt_lt h)).mp rfl⟩

theorem Context.axis_of_not_names (ctx : Context) (h : ¬ NamesAxis rank a) :
    ctx.axis a rank = .error (ctx.refuse (.axisRange a rank)) := by
  unfold NamesAxis at h
  unfold Context.axis
  dsimp only
  rw [if_neg]
  split <;> omega

theorem mapM_axis_of_names (ctx : Context) (h : ∀ a ∈ numbers, NamesAxis rank a) :
    numbers.mapM (fun a => ctx.axis a rank) = .ok (axesAt rank numbers) := by
  rw [except_mapM_eq_ok, axesAt, List.forall₂_map_right_iff, List.forall₂_same]
  intro a ha
  exact ctx.axis_of_names (h a ha)

/-- A list with a number that names no axis is refused because of such a number. -/
theorem mapM_axis_of_not_names (ctx : Context) (h : ¬ ∀ a ∈ numbers, NamesAxis rank a) :
    ∃ a ∈ numbers, ¬ NamesAxis rank a ∧
      numbers.mapM (fun a => ctx.axis a rank) = .error (ctx.refuse (.axisRange a rank)) := by
  cases hrun : numbers.mapM (fun a => ctx.axis a rank) with
  | ok axes =>
    refine absurd (fun a ha => ?_) h
    obtain ⟨axis, -, haxis⟩ := forall₂_exists_right (except_mapM_eq_ok.mp hrun) ha
    have := Context.axis_eq_ok.mp haxis
    unfold NamesAxis
    omega
  | error e =>
    obtain ⟨a, ha, herror⟩ := except_mapM_error hrun
    by_cases hnames : NamesAxis rank a
    · rw [ctx.axis_of_names hnames] at herror
      cases herror
    · rw [ctx.axis_of_not_names hnames] at herror
      exact ⟨a, ha, hnames, congrArg _ (Except.error.inj herror).symm⟩

end Axes

/-! ### Axes in order -/

theorem insertInOrder_eq_orderedInsert (n : Nat) (l : List Nat) :
    insertInOrder n l = l.orderedInsert (· ≤ ·) n := by
  induction l with
  | nil => rfl
  | cons m l ih => rw [insertInOrder, List.orderedInsert_cons, ih]

theorem inOrder_eq_insertionSort (l : List Nat) : inOrder l = l.insertionSort (· ≤ ·) := by
  induction l with
  | nil => rfl
  | cons n l ih =>
    rw [List.insertionSort_cons, ← ih, ← insertInOrder_eq_orderedInsert]
    rfl

theorem mem_inOrder {l : List Nat} {n : Nat} : n ∈ inOrder l ↔ n ∈ l := by
  rw [inOrder_eq_insertionSort, (List.perm_insertionSort (· ≤ ·) l).mem_iff]

theorem pairwise_inOrder (l : List Nat) : (inOrder l).Pairwise (· ≤ ·) := by
  rw [inOrder_eq_insertionSort]
  exact List.pairwise_insertionSort (· ≤ ·) l

theorem mem_withoutRepeats {l : List Nat} {n : Nat} : n ∈ withoutRepeats l ↔ n ∈ l := by
  induction l with
  | nil => rfl
  | cons m l ih =>
    rw [withoutRepeats]
    split
    case isTrue hhead =>
      rw [ih, List.mem_cons, or_iff_right_of_imp]
      rintro rfl
      exact List.mem_of_mem_head? hhead
    case isFalse => rw [List.mem_cons, List.mem_cons, ih]

/-- In a list in order, numbers that are equal stand next to each other. -/
theorem pairwise_withoutRepeats {l : List Nat} (h : l.Pairwise (· ≤ ·)) :
    (withoutRepeats l).Pairwise (· < ·) := by
  induction l with
  | nil => exact .nil
  | cons m l ih =>
    obtain ⟨hle, hl⟩ := List.pairwise_cons.mp h
    rw [withoutRepeats]
    split
    case isTrue => exact ih hl
    case isFalse hhead =>
      refine List.pairwise_cons.mpr ⟨fun n hn => ?_, ih hl⟩
      have hn := mem_withoutRepeats.mp hn
      refine lt_of_le_of_ne (hle n hn) ?_
      rintro rfl
      -- the first number is not above this one, and not below it either
      cases l with
      | nil => cases hn
      | cons first rest =>
        have hfirst : first ≤ m := by
          rcases List.mem_cons.mp hn with rfl | hrest
          · exact le_rfl
          · exact (List.pairwise_cons.mp hl).1 m hrest
        exact hhead (congrArg some (le_antisymm hfirst (hle first List.mem_cons_self)))

/-- Numbers below a bound, brought into order and cleared of repeats, are counted up to the bound. -/
theorem withoutRepeats_inOrder {l : List Nat} {rank : Nat} (h : ∀ n ∈ l, n < rank) :
    withoutRepeats (inOrder l) = (List.range rank).filter fun n => l.contains n := by
  refine List.Pairwise.eq_of_mem_iff (pairwise_withoutRepeats (pairwise_inOrder l))
    (List.pairwise_lt_range.filter _) fun n => ?_
  rw [mem_withoutRepeats, mem_inOrder, List.mem_filter, List.mem_range, List.contains_iff_mem]
  exact ⟨fun hn => ⟨h n hn, hn⟩, And.right⟩

/-- A reduction goes along the axes that it finds, in the order of counting. -/
theorem reductionAxes_eq_filter (ctx : Context) (rank : Nat) :
    reductionAxes ctx rank = (do
      let axes ← (← ctx.staticInts 1).mapM fun a => ctx.axis a rank
      return (List.range rank).filter fun axis => axes.contains axis) := by
  rw [reductionAxes]
  cases ctx.staticInts 1 with
  | error e => rfl
  | ok numbers =>
    rw [except_ok_bind, except_ok_bind]
    cases hfound : numbers.mapM fun a => ctx.axis a rank with
    | error e => rfl
    | ok axes =>
      rw [except_ok_bind, except_ok_bind, withoutRepeats_inOrder]
      intro axis haxis
      obtain ⟨a, -, ha⟩ := forall₂_exists_left (except_mapM_eq_ok.mp hfound) haxis
      exact (Context.axis_eq_ok.mp ha).1

/-- A rule with two data inputs and an output slot finds its operand in the arena and reads numbers on
its second input slot. -/
structure ReadsNumbers (ctx : Context) (ws : List Wire) (g : Graph) (x : Wire) (type : TensorType)
    (numbers : List Int) : Prop where
  inputs : ctx.node.inputs = 2
  slots : 0 < ctx.node.outputs
  operand : ws[0]? = some x
  typed : g.type? x = some type
  numbersOf : ctx.staticInts 1 = .ok numbers

/-- The context of a node with two inputs, one of which reads a constant list of integers. -/
def Context.fedByConstant (spec : Source.NodeSpec) (slot : Nat) (values : List Int) : Context :=
  ⟨{ spec with index := 1, inputs := 2, inEdges := [0] },
    { nodes := #[{ name := "values", op := "Const", index := 0,
                   attrs := NameTable.empty.insert "value" (.tensor (.vector64 values)) }],
      edges := #[⟨0, 1, .data 0 slot⟩] }, []⟩

end GraphLowering
