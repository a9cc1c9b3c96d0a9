import Mathlib
import GraphLowering.Text.Numeral

/-!
# What a numeral denotes

A numeral is a run of decimal digits, and it denotes the number whose positional notation it is,
leading zeros or not. The readers of numerals work from the front and multiply as they go; here they
are shown to give the positional value, and to accept nothing that is not a numeral.

* `Text.digitsAfter?_eq_some` — what a run of digits adds to the number that stands before it.
* `Text.Denotes`, `Text.digits?_eq_some` — the numerals and their numbers.
* `Text.Denotes.toDigits` — every number has a numeral that denotes it.
* `Text.DenotesSize`, `Text.size?_eq_some` — the numerals of sizes, with an optional `+`.
* `Text.DenotesInteger`, `Text.int64?_eq_some` — the numerals of signed words, with or without a
  sign.
* `Text.DenotesSize.toString`, `Text.DenotesInteger.toString` — the decimal notation of a size or a
  signed word is one of its numerals.
-/

namespace GraphLowering.Text

/-! ### Runs of digits -/

/-- The number that a character stands for when it is a decimal digit. -/
def digitValue (c : Char) : Nat :=
  c.toNat - '0'.toNat

/-- The value of a text of digits in positional notation: the last digit counts ones, the one before
it tens, and so on. -/
def positional (text : List Char) : Nat :=
  Nat.ofDigits 10 (text.reverse.map digitValue)

variable {c : Char} {text : List Char} {n m d : Nat}

@[simp] theorem positional_nil : positional [] = 0 := rfl

/-- The first digit counts as often as there are numbers of the length of the rest. -/
theorem positional_cons (c : Char) (text : List Char) :
    positional (c :: text) = 10 ^ text.length * digitValue c + positional text := by
  unfold positional
  rw [List.map_reverse, List.map_reverse, List.map_cons, Nat.ofDigits_reverse_cons,
    List.length_map, Nat.add_comm]

/-- The last digit counts ones. -/
theorem positional_concat (text : List Char) (c : Char) :
    positional (text ++ [c]) = 10 * positional text + digitValue c := by
  unfold positional
  rw [List.reverse_append, List.reverse_singleton, List.singleton_append, List.map_cons,
    Nat.ofDigits_cons, Nat.add_comm]

theorem digit?_eq_some : digit? c = some d ↔ c.isDigit ∧ d = digitValue c := by
  have hrange : ('0' ≤ c ∧ c ≤ '9') ↔ c.isDigit := by
    simp [Char.isDigit, Char.le_def]
  unfold digit?
  by_cases hc : c.isDigit
  · rw [if_pos (hrange.mpr hc)]
    simp [hc, digitValue, eq_comm]
  · rw [if_neg (mt hrange.mp hc)]
    simp [hc]

/-- A run of digits moves the number before it to the left by its length and adds its own value. -/
theorem digitsAfter?_eq_some :
    digitsAfter? n text = some m ↔
      (∀ c ∈ text, c.isDigit) ∧ m = 10 ^ text.length * n + positional text := by
  -- the first digit joins the number before the run, which is therefore any number
  induction text generalizing n with
  | nil =>
    simp only [digitsAfter?, Option.some.injEq, List.length_nil, pow_zero, Nat.one_mul,
      positional_nil, Nat.add_zero, List.not_mem_nil, IsEmpty.forall_iff, implies_true, true_and]
    exact eq_comm
  | cons c text ih =>
    rw [digitsAfter?, Option.bind_eq_some_iff, List.forall_mem_cons]
    have hshift : 10 ^ text.length * (10 * n + digitValue c) + positional text =
        10 ^ (c :: text).length * n + positional (c :: text) := by
      rw [positional_cons, List.length_cons]
      ring
    constructor
    · rintro ⟨d, hd, hrest⟩
      obtain ⟨hc, rfl⟩ := digit?_eq_some.mp hd
      obtain ⟨htext, hm⟩ := ih.mp hrest
      exact ⟨⟨hc, htext⟩, hm.trans hshift⟩
    · rintro ⟨⟨hc, htext⟩, hm⟩
      exact ⟨_, digit?_eq_some.mpr ⟨hc, rfl⟩, ih.mpr ⟨htext, hm.trans hshift.symm⟩⟩

/-! ### Numerals -/

/-- A text is a numeral of the number: one or more decimal digits, with the number for their
positional value. -/
structure Denotes (text : List Char) (n : Nat) : Prop where
  ne_nil : text ≠ []
  isDigit : ∀ c ∈ text, c.isDigit
  value : n = positional text

/-- The numerals are what the reader of digits accepts. -/
theorem digits?_eq_some : digits? text = some n ↔ Denotes text n := by
  cases text with
  | nil =>
    constructor
    · exact nofun
    · intro h
      exact absurd rfl h.ne_nil
  | cons c text =>
    rw [digits?, digitsAfter?_eq_some, Nat.mul_zero, Nat.zero_add]
    constructor
    · rintro ⟨hdigits, hvalue⟩
      exact ⟨List.cons_ne_nil c text, hdigits, hvalue⟩
    · intro h
      exact ⟨h.isDigit, h.value⟩

theorem Denotes.notMem (h : Denotes text n) (hc : c.isDigit = false) : c ∉ text := by
  intro hmem
  have := h.isDigit c hmem
  simp [hc] at this

theorem digitValue_digitChar (h : d < 10) : digitValue d.digitChar = d := by
  show d.digitChar.toNat - 48 = d
  rw [Nat.toNat_digitChar_of_lt_ten h]
  omega

theorem positional_toDigits (n : Nat) : positional (Nat.toDigits 10 n) = n := by
  -- the notation splits off its last digit, and what stands before it is that of the quotient
  induction n using Nat.strong_induction_on with
  | _ n ih =>
    rw [Nat.toDigits_eq_if (by omega)]
    split
    case isTrue hn =>
      show positional ([] ++ [n.digitChar]) = n
      rw [positional_concat, digitValue_digitChar hn]
      simp
    case isFalse hn =>
      rw [positional_concat, ih (n / 10) (by omega), digitValue_digitChar (Nat.mod_lt n (by omega))]
      omega

/-- The decimal notation of a number denotes it. -/
theorem Denotes.toDigits (n : Nat) : Denotes (Nat.toDigits 10 n) n where
  ne_nil := Nat.toDigits_ne_nil
  isDigit c hc := Nat.isDigit_of_mem_toDigits (by omega) (by omega) hc
  value := (positional_toDigits n).symm

/-! ### Sizes -/

/-- A text is a numeral of a 64-bit size, possibly behind a `+`. -/
def DenotesSize (text : List Char) (n : Nat) : Prop :=
  n < 2 ^ 64 ∧ ∃ digits, (text = digits ∨ text = '+' :: digits) ∧ Denotes digits n

theorem size?_of_ne_plus (h : text.head? ≠ some '+') :
    size? text = (digits? text).filter (· < sizeLimit) := by
  unfold size?
  split
  · exact absurd rfl h
  · rfl

theorem filter_digits?_eq_some :
    (digits? text).filter (· < sizeLimit) = some n ↔ n < 2 ^ 64 ∧ Denotes text n := by
  rw [Option.filter_eq_some_iff, digits?_eq_some, decide_eq_true_eq, and_comm]
  rfl

/-- The numerals of sizes are what the reader of sizes accepts. -/
theorem size?_eq_some : size? text = some n ↔ DenotesSize text n := by
  constructor
  · intro h
    by_cases hplus : text.head? = some '+'
    · obtain ⟨digits, rfl⟩ := List.head?_eq_some_iff.mp hplus
      obtain ⟨hn, hdigits⟩ := filter_digits?_eq_some.mp h
      exact ⟨hn, digits, .inr rfl, hdigits⟩
    · rw [size?_of_ne_plus hplus] at h
      obtain ⟨hn, hdigits⟩ := filter_digits?_eq_some.mp h
      exact ⟨hn, text, .inl rfl, hdigits⟩
  · rintro ⟨hn, digits, rfl | rfl, hdigits⟩
    · -- no digit is a sign, so a bare run is not read as one behind a sign
      have hplus : text.head? ≠ some '+' := by
        intro hhead
        exact hdigits.notMem (by decide) (List.mem_of_head? hhead)
      rw [size?_of_ne_plus hplus]
      exact filter_digits?_eq_some.mpr ⟨hn, hdigits⟩
    · exact filter_digits?_eq_some.mpr ⟨hn, hdigits⟩

theorem DenotesSize.notMem (h : DenotesSize text n) (hdigit : c.isDigit = false)
    (hplus : c ≠ '+') : c ∉ text := by
  obtain ⟨-, digits, rfl | rfl, hdigits⟩ := h
  · exact hdigits.notMem hdigit
  · exact List.not_mem_cons_of_ne_of_not_mem hplus (hdigits.notMem hdigit)

/-- The decimal notation of a size denotes it. -/
theorem DenotesSize.toString (hn : n < 2 ^ 64) : DenotesSize (toString n).toList n := by
  rw [Nat.toString_eq_repr, Nat.toList_repr]
  exact ⟨hn, _, .inl rfl, .toDigits n⟩

/-! ### Signed words -/

/-- A text is a numeral of a signed 64-bit word, possibly behind a sign. There is one more number
behind a minus than there is without it. -/
inductive DenotesInteger : List Char → Int → Prop where
  | bare {digits : List Char} {n : Nat} (h : Denotes digits n) (hn : n < 2 ^ 63) :
    DenotesInteger digits n
  | plus {digits : List Char} {n : Nat} (h : Denotes digits n) (hn : n < 2 ^ 63) :
    DenotesInteger ('+' :: digits) n
  | minus {digits : List Char} {n : Nat} (h : Denotes digits n) (hn : n ≤ 2 ^ 63) :
    DenotesInteger ('-' :: digits) (-n)

variable {z : Int}

theorem int64?_minus (digits : List Char) :
    int64? ('-' :: digits) =
      ((digits? digits).filter (· ≤ signedLimit)).map fun (n : Nat) => -(n : Int) := by
  rw [int64?]
  cases (digits? digits).filter (· ≤ signedLimit) with
  | none => rfl
  | some n => rfl

theorem int64?_plus (digits : List Char) :
    int64? ('+' :: digits) =
      ((digits? digits).filter (· < signedLimit)).map fun (n : Nat) => (n : Int) := by
  rw [int64?]
  cases (digits? digits).filter (· < signedLimit) with
  | none => rfl
  | some n => rfl

/-- Without a sign in front, a text is read as if a plus stood there. -/
theorem int64?_of_unsigned (hminus : text.head? ≠ some '-') (hplus : text.head? ≠ some '+') :
    int64? text = int64? ('+' :: text) := by
  unfold int64?
  split
  · exact absurd rfl hminus
  · exact absurd rfl hplus
  · rfl

theorem int64?_minus_eq_some :
    int64? ('-' :: text) = some z ↔ ∃ n : Nat, Denotes text n ∧ n ≤ 2 ^ 63 ∧ -(n : Int) = z := by
  simp only [int64?_minus, Option.map_eq_some_iff, Option.filter_eq_some_iff, digits?_eq_some,
    decide_eq_true_eq, and_assoc]
  rfl

theorem int64?_plus_eq_some :
    int64? ('+' :: text) = some z ↔ ∃ n : Nat, Denotes text n ∧ n < 2 ^ 63 ∧ (n : Int) = z := by
  simp only [int64?_plus, Option.map_eq_some_iff, Option.filter_eq_some_iff, digits?_eq_some,
    decide_eq_true_eq, and_assoc]
  rfl

/-- The numerals of signed words are what the reader of signed words accepts. -/
theorem int64?_eq_some : int64? text = some z ↔ DenotesInteger text z := by
  constructor
  · intro h
    by_cases hminus : text.head? = some '-'
    · obtain ⟨digits, rfl⟩ := List.head?_eq_some_iff.mp hminus
      obtain ⟨n, hdigits, hn, rfl⟩ := int64?_minus_eq_some.mp h
      exact .minus hdigits hn
    by_cases hplus : text.head? = some '+'
    · obtain ⟨digits, rfl⟩ := List.head?_eq_some_iff.mp hplus
      obtain ⟨n, hdigits, hn, rfl⟩ := int64?_plus_eq_some.mp h
      exact .plus hdigits hn
    · rw [int64?_of_unsigned hminus hplus] at h
      obtain ⟨n, hdigits, hn, rfl⟩ := int64?_plus_eq_some.mp h
      exact .bare hdigits hn
  · intro h
    cases h with
    | @bare _ n hdigits hn =>
      have hhead : ∀ c, c.isDigit = false → text.head? ≠ some c := by
        intro c hc hhead
        exact hdigits.notMem hc (List.mem_of_head? hhead)
      rw [int64?_of_unsigned (hhead _ (by decide)) (hhead _ (by decide))]
      exact int64?_plus_eq_some.mpr ⟨n, hdigits, hn, rfl⟩
    | @plus _ n hdigits hn => exact int64?_plus_eq_some.mpr ⟨n, hdigits, hn, rfl⟩
    | @minus _ n hdigits hn => exact int64?_minus_eq_some.mpr ⟨n, hdigits, hn, rfl⟩

/-- A numeral of a signed word holds digits and signs. -/
theorem DenotesInteger.char (h : DenotesInteger text z) (hc : c ∈ text) :
    c.isDigit ∨ c = '+' ∨ c = '-' := by
  cases h with
  | bare hdigits => exact .inl (hdigits.isDigit c hc)
  | plus hdigits =>
    obtain rfl | hc := List.mem_cons.mp hc
    · exact .inr (.inl rfl)
    · exact .inl (hdigits.isDigit c hc)
  | minus hdigits =>
    obtain rfl | hc := List.mem_cons.mp hc
    · exact .inr (.inr rfl)
    · exact .inl (hdigits.isDigit c hc)

theorem DenotesInteger.notMem (h : DenotesInteger text z) (hdigit : c.isDigit = false)
    (hplus : c ≠ '+') (hminus : c ≠ '-') : c ∉ text := by
  intro hc
  simpa [hdigit, hplus, hminus] using h.char hc

/-- The decimal notation of a signed word denotes it. -/
theorem DenotesInteger.toString (hle : -2 ^ 63 ≤ z) (hlt : z < 2 ^ 63) :
    DenotesInteger (toString z).toList z := by
  rw [Int.toString_eq_repr, Int.repr_eq_if]
  split
  case isTrue hz =>
    obtain ⟨n, rfl⟩ := Int.eq_ofNat_of_zero_le hz
    rw [Int.toNat_natCast, Nat.toList_repr]
    exact .bare (Denotes.toDigits n) (by omega)
  case isFalse hz =>
    obtain ⟨n, hn⟩ := Int.eq_ofNat_of_zero_le (a := -z) (by omega)
    obtain rfl : -(n : Int) = z := by omega
    rw [hn, Int.toNat_natCast, String.toList_append, Nat.toList_repr]
    exact .minus (Denotes.toDigits n) (by omega)

end GraphLowering.Text
