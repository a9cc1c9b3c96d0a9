import Mathlib
import GraphLowering.Proofs.Stretching

/-!
# The common shape of two shapes

Two shapes may or may not have a common shape. Where they have one, it does not matter in which order
shapes are combined, how the combinations are grouped, or how often a shape takes part; a scalar
changes nothing. From these laws alone it follows that the common shape is the least of the shapes to
which both can be stretched, since a shape stretches to another just if the other is their common
shape.

* `commonSize_comm`, `commonSize_assoc` — the laws for the sizes of one axis.
* `broadcastReversed_comm`, `broadcastReversed_assoc` — the laws for shapes from the last axis on.
* `broadcastShapes_comm`, `broadcastShapes_self`, `broadcastShapes_nil`, `broadcastShapes_assoc` — the
  laws for shapes.
* `stretches_left_of_common`, `exists_common_of_stretches` — the common shape as a least upper bound.
* `broadcastShapes_laws` — the laws of the common shape, and when there is one.
-/

namespace GraphLowering

/-! ### One axis -/

@[simp] theorem commonSize_self (a : Nat) : commonSize a a = some a := if_pos (.inl rfl)

@[simp] theorem commonSize_one (a : Nat) : commonSize a 1 = some a := if_pos (.inr rfl)

theorem commonSize_of_ne {a b : Nat} (ha : a ≠ 1) (hb : b ≠ 1) (hab : a ≠ b) :
    commonSize a b = none := by
  simp [commonSize, ha, hb, hab]

theorem commonSize_comm (a b : Nat) : commonSize a b = commonSize b a := by
  unfold commonSize
  split
  case isTrue h =>
    split
    case isTrue h' => rw [Option.some.injEq]; omega
    case isFalse h' => rw [if_pos (by omega)]
  case isFalse h =>
    split
    case isTrue h' => rw [if_pos (.inr h')]
    case isFalse h' => rw [if_neg (by omega), if_neg (by omega)]

@[simp] theorem one_commonSize (a : Nat) : commonSize 1 a = some a := by
  rw [commonSize_comm, commonSize_one]

/-- Three sizes that are not one have a common size only if they are the same; all other cases leave
at most two of them. -/
theorem commonSize_assoc (a b c : Nat) :
    (commonSize a b).bind (commonSize · c) = (commonSize b c).bind (commonSize a) := by
  by_cases ha : a = 1
  · subst ha
    simp
  by_cases hb : b = 1
  · subst hb
    simp
  by_cases hc : c = 1
  · subst hc
    simp
  by_cases hab : a = b
  · subst hab
    by_cases hbc : a = c
    · subst hbc
      rw [commonSize_self, Option.bind_some, Option.bind_some]
    · rw [commonSize_self, commonSize_of_ne ha hc hbc, Option.bind_some,
        commonSize_of_ne ha hc hbc, Option.bind_none]
  · rw [commonSize_of_ne ha hb hab, Option.bind_none]
    by_cases hbc : b = c
    · subst hbc
      rw [commonSize_self, Option.bind_some, commonSize_of_ne ha hb hab]
    · rw [commonSize_of_ne hb hc hbc, Option.bind_none]

/-! ### Shapes from the last axis on -/

@[simp] theorem nil_broadcastReversed (bs : List Nat) : broadcastReversed [] bs = some bs := by
  rw [broadcastReversed]

@[simp] theorem broadcastReversed_nil (as : List Nat) : broadcastReversed as [] = some as := by
  cases as with
  | nil => rfl
  | cons a as => rfl

theorem broadcastReversed_cons (a b : Nat) (as bs : List Nat) :
    broadcastReversed (a :: as) (b :: bs) =
      (commonSize a b).bind fun size => (broadcastReversed as bs).map (size :: ·) := by
  rw [broadcastReversed]
  cases commonSize a b <;> cases broadcastReversed as bs <;> rfl

theorem broadcastReversed_comm (as bs : List Nat) :
    broadcastReversed as bs = broadcastReversed bs as := by
  induction as generalizing bs with
  | nil => simp
  | cons a as ih =>
    cases bs with
    | nil => simp
    | cons b bs => rw [broadcastReversed_cons, broadcastReversed_cons, commonSize_comm, ih]

theorem broadcastReversed_self (as : List Nat) : broadcastReversed as as = some as := by
  induction as with
  | nil => rfl
  | cons a as ih => rw [broadcastReversed_cons, commonSize_self, ih]; rfl

/-- The first of three shapes is combined with the last two axis by axis. -/
theorem broadcastReversed_bind_left (a b c : Nat) (as bs cs : List Nat) :
    (broadcastReversed (a :: as) (b :: bs)).bind (broadcastReversed · (c :: cs)) =
      ((commonSize a b).bind (commonSize · c)).bind fun size =>
        ((broadcastReversed as bs).bind (broadcastReversed · cs)).map (size :: ·) := by
  rw [broadcastReversed_cons]
  cases commonSize a b with
  | none => rfl
  | some size =>
    cases broadcastReversed as bs with
    | none => cases commonSize size c <;> simp
    | some sizes => simp [broadcastReversed_cons]

/-- The last of three shapes is combined with the first two axis by axis. -/
theorem broadcastReversed_bind_right (a b c : Nat) (as bs cs : List Nat) :
    (broadcastReversed (b :: bs) (c :: cs)).bind (broadcastReversed (a :: as)) =
      ((commonSize b c).bind (commonSize a)).bind fun size =>
        ((broadcastReversed bs cs).bind (broadcastReversed as)).map (size :: ·) := by
  rw [broadcastReversed_cons]
  cases commonSize b c with
  | none => rfl
  | some size =>
    cases broadcastReversed bs cs with
    | none => cases commonSize a size <;> simp
    | some sizes => simp [broadcastReversed_cons]

/-- The induction is on all three shapes at once: as soon as one of them has no more axes, both
groupings combine what is left of the other two. -/
theorem broadcastReversed_assoc (as bs cs : List Nat) :
    (broadcastReversed as bs).bind (broadcastReversed · cs) =
      (broadcastReversed bs cs).bind (broadcastReversed as) := by
  induction as generalizing bs cs with
  | nil => simp
  | cons a as ih =>
    cases bs with
    | nil => simp
    | cons b bs =>
      cases cs with
      | nil => simp
      | cons c cs =>
        rw [broadcastReversed_bind_left, broadcastReversed_bind_right, commonSize_assoc, ih]

theorem length_of_broadcastReversed {as bs sizes : List Nat}
    (h : broadcastReversed as bs = some sizes) : sizes.length = max as.length bs.length := by
  induction as generalizing bs sizes with
  | nil =>
    obtain rfl : bs = sizes := by simpa using h
    simp
  | cons a as ih =>
    cases bs with
    | nil =>
      obtain rfl : a :: as = sizes := by simpa using h
      simp
    | cons b bs =>
      rw [broadcastReversed_cons] at h
      obtain ⟨size, -, h⟩ := Option.bind_eq_some_iff.mp h
      obtain ⟨rest, hrest, rfl⟩ := Option.map_eq_some_iff.mp h
      simp [ih hrest]

/-! ### Shapes -/

variable {a b s t : Shape}

theorem broadcastShapes_comm (a b : Shape) : broadcastShapes a b = broadcastShapes b a := by
  rw [broadcastShapes, broadcastReversed_comm, broadcastShapes]

theorem broadcastShapes_self (a : Shape) : broadcastShapes a a = some a := by
  simp [broadcastShapes, broadcastReversed_self]

theorem broadcastShapes_nil (a : Shape) : broadcastShapes [] a = some a := by
  simp [broadcastShapes]

theorem broadcastShapes_assoc (a b c : Shape) :
    (broadcastShapes a b).bind (broadcastShapes · c) =
      (broadcastShapes b c).bind (broadcastShapes a) := by
  have hleft : (broadcastShapes a b).bind (broadcastShapes · c) =
      ((broadcastReversed a.reverse b.reverse).bind (broadcastReversed · c.reverse)).map
        List.reverse := by
    unfold broadcastShapes
    cases broadcastReversed a.reverse b.reverse <;> simp
  have hright : (broadcastShapes b c).bind (broadcastShapes a) =
      ((broadcastReversed b.reverse c.reverse).bind (broadcastReversed a.reverse)).map
        List.reverse := by
    unfold broadcastShapes
    cases broadcastReversed b.reverse c.reverse <;> simp
  rw [hleft, hright, broadcastReversed_assoc]

theorem length_of_broadcastShapes (h : broadcastShapes a b = some s) :
    s.length = max a.length b.length := by
  obtain ⟨sizes, hsizes, rfl⟩ := Option.map_eq_some_iff.mp h
  simpa using length_of_broadcastReversed hsizes

/-! ### The least shape that both stretch to -/

/-- Combining a shape with the common shape changes nothing, as it has taken part already. -/
theorem stretches_left_of_common (h : broadcastShapes a b = some s) : Stretches a s := by
  have hassoc := broadcastShapes_assoc a a b
  rw [broadcastShapes_self, h, Option.bind_some, Option.bind_some, h] at hassoc
  exact broadcastShapes_eq_self_iff.mp hassoc.symm

theorem stretches_right_of_common (h : broadcastShapes a b = some s) : Stretches b s :=
  stretches_left_of_common ((broadcastShapes_comm b a).trans h)

/-- Two shapes that stretch to a third have a common shape, which stretches to it as well. -/
theorem exists_common_of_stretches (ha : Stretches a t) (hb : Stretches b t) :
    ∃ s, broadcastShapes a b = some s ∧ Stretches s t := by
  have hassoc := broadcastShapes_assoc a b t
  rw [broadcastShapes_eq_self_iff.mpr hb, Option.bind_some, broadcastShapes_eq_self_iff.mpr ha]
    at hassoc
  obtain ⟨s, hs, hst⟩ := Option.bind_eq_some_iff.mp hassoc
  exact ⟨s, hs, broadcastShapes_eq_self_iff.mp hst⟩

/-- **Combining shapes.** The common shape of two shapes does not depend on their order, a shape is
its own common shape, and a scalar leaves every shape as it is. Three shapes have the same common
shape, or none, in both groupings. Two shapes have a common shape just if both stretch to some shape;
the common shape is then of the greater rank of the two, both stretch to it, and it stretches to every
shape that both stretch to. -/
theorem broadcastShapes_laws (a b c : Shape) :
    broadcastShapes a b = broadcastShapes b a ∧
    broadcastShapes a a = some a ∧
    broadcastShapes [] a = some a ∧
    (broadcastShapes a b).bind (broadcastShapes · c) =
      (broadcastShapes b c).bind (broadcastShapes a) ∧
    ((∃ s, broadcastShapes a b = some s) ↔ ∃ t, Stretches a t ∧ Stretches b t) ∧
    ∀ s, broadcastShapes a b = some s →
      s.length = max a.length b.length ∧ Stretches a s ∧ Stretches b s ∧
      ∀ t, Stretches a t → Stretches b t → Stretches s t := by
  refine ⟨broadcastShapes_comm a b, broadcastShapes_self a, broadcastShapes_nil a,
    broadcastShapes_assoc a b c, ⟨?_, ?_⟩, ?_⟩
  · rintro ⟨s, hs⟩
    exact ⟨s, stretches_left_of_common hs, stretches_right_of_common hs⟩
  · rintro ⟨t, ha, hb⟩
    obtain ⟨s, hs, -⟩ := exists_common_of_stretches ha hb
    exact ⟨s, hs⟩
  · intro s hs
    refine ⟨length_of_broadcastShapes hs, stretches_left_of_common hs,
      stretches_right_of_common hs, fun t ha hb => ?_⟩
    obtain ⟨s', hs', hst⟩ := exists_common_of_stretches ha hb
    obtain rfl : s = s' := Option.some.inj (hs.symm.trans hs')
    exact hst

/-- An empty axis and one of size one meet in the empty one. A third shape that fits one of the two
shapes and not the other fits neither grouping, and the common shape stretches to a shape of higher
rank. -/
theorem emptyAxis_common :
    broadcastShapes [4, 1, 5] [0, 1] = some [4, 0, 5] ∧
    broadcastShapes [0, 1] [2, 1, 1] = some [2, 0, 1] ∧
    (broadcastShapes [4, 1, 5] [0, 1]).bind (broadcastShapes · [2, 1, 1]) = none ∧
    (broadcastShapes [0, 1] [2, 1, 1]).bind (broadcastShapes [4, 1, 5]) = none ∧
    Stretches [4, 0, 5] [7, 4, 0, 5] := by
  have hcommon : broadcastShapes [4, 1, 5] [0, 1] = some [4, 0, 5] := by decide
  have hnone : (broadcastShapes [4, 1, 5] [0, 1]).bind (broadcastShapes · [2, 1, 1]) = none := by
    decide
  obtain ⟨-, -, -, hassoc, -, hcommonOf⟩ := broadcastShapes_laws [4, 1, 5] [0, 1] [2, 1, 1]
  obtain ⟨-, -, -, hleast⟩ := hcommonOf _ hcommon
  refine ⟨hcommon, by decide, hnone, hassoc ▸ hnone, hleast [7, 4, 0, 5] ?_ ?_⟩
  · exact broadcastShapes_eq_self_iff.mp (by decide)
  · exact broadcastShapes_eq_self_iff.mp (by decide)

end GraphLowering
