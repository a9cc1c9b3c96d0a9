import GraphLowering.Error
import GraphLowering.Word

/-!
# Checked access and arithmetic

Reading a list at a position that the caller has already found to be in range, and differences and
quotients of numbers that the caller has found to have one. A position out of range, a difference
below zero or a division by zero is a `Fault`, which is kept apart from the refusals that an input
can cause. So is a list with more bytes than a signed word counts, which no memory holds.

* `entryAt`, `entriesFrom` — parts of a list.
* `minus`, `quotient`, `remainder` — arithmetic on sizes.
* `needRoom` — the bytes of a list.
-/

namespace GraphLowering

/-- The entry of a list at a position. -/
def entryAt {α : Type} (xs : List α) (i : Nat) : Except Error α :=
  match xs[i]? with
  | some x => .ok x
  | none => .error (.internal (.position i xs.length))

theorem entryAt_eq_ok {α : Type} {xs : List α} {i : Nat} {x : α} (h : xs[i]? = some x) :
    entryAt xs i = .ok x := by
  simp [entryAt, h]

theorem entryAt_eq_ok_iff {α : Type} {xs : List α} {i : Nat} {x : α} :
    entryAt xs i = .ok x ↔ xs[i]? = some x := by
  unfold entryAt
  cases xs[i]? <;> simp

@[simp] theorem entryAt_cons_zero {α : Type} (x : α) (xs : List α) :
    entryAt (x :: xs) 0 = .ok x := rfl

/-- The entries of a list from a position on. -/
def entriesFrom {α : Type} (xs : List α) (i : Nat) : Except Error (List α) :=
  if i ≤ xs.length then .ok (xs.drop i) else .error (.internal (.position i xs.length))

/-- What is left of a number when a part of it is taken away. -/
def minus (a b : Nat) : Except Error Nat :=
  if b ≤ a then .ok (a - b) else .error (.internal (.belowZero a b))

/-- How often a number goes into another. -/
def quotient (a b : Nat) : Except Error Nat :=
  if b = 0 then .error (.internal (.zeroDivisor a)) else .ok (a / b)

/-- What a division leaves. -/
def remainder (a b : Nat) : Except Error Nat :=
  if b = 0 then .error (.internal (.zeroDivisor a)) else .ok (a % b)

/-- A list of `count` entries with `bytes` bytes each, whose number must be a signed word. -/
def needRoom (count bytes : Nat) : Except Error Unit :=
  if count * bytes < signedLimit then .ok () else .error (.internal .overflow)

theorem minus_eq_ok {a b : Nat} (h : b ≤ a) : minus a b = .ok (a - b) := if_pos h

theorem quotient_eq_ok {a b : Nat} (h : b ≠ 0) : quotient a b = .ok (a / b) := if_neg h

theorem remainder_eq_ok {a b : Nat} (h : b ≠ 0) : remainder a b = .ok (a % b) := if_neg h

theorem needRoom_eq_ok {count bytes : Nat} {u : Unit} :
    needRoom count bytes = .ok u ↔ count * bytes < signedLimit := by
  unfold needRoom
  split <;> simp [*]

theorem needRoom_eq_error {count bytes : Nat} {e : Error} :
    needRoom count bytes = .error e ↔
      signedLimit ≤ count * bytes ∧ e = .internal .overflow := by
  unfold needRoom
  split
  case isTrue h => simp [Nat.not_le.mpr h]
  case isFalse h =>
    rw [Except.error.injEq]
    exact ⟨fun he => ⟨Nat.not_lt.mp h, he.symm⟩, fun he => he.2.symm⟩

end GraphLowering
