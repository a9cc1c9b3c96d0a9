import Mathlib
import GraphLowering.Tensor

/-!
# Whole numbers as floating-point words

A number that is rounded to a 64-bit floating-point word and then cast to an integer type comes back
unchanged just if the word can hold it and the type can, or if it is the greatest number of the type:
a number beyond the type's range becomes that one.

* `HeldExactly` — the numbers that a 64-bit floating-point word holds.
* `nearest_of_held`, `datum_ofMagnitude` — the word of such a number, and what it stands for.
* `clampToInt_ofInt`, `held_of_clampToInt` — what comes back of a number, and what can come back.
* `ElementType.clampToInt_eq_iff` — which numbers an integer type gives back.
* `Elements.ints?_replicate` — a number in every place of a tensor of integers.
-/

namespace GraphLowering

/-- The whole numbers that a 64-bit floating-point word holds: a significand of 53 bits times a power
of two. -/
def HeldExactly (n : Nat) : Prop :=
  ∃ significand scale : Nat, significand < 2 ^ 53 ∧ n = significand * 2 ^ scale

theorem heldExactly_of_lt {n : Nat} (h : n < 2 ^ 53) : HeldExactly n := ⟨n, 0, h, by simp⟩

/-! ### Rounding a number that is held -/

/-- A fraction is moved by the difference of two exponents: one of the two powers is one. -/
theorem rescale_sub (num den a b : Nat) :
    rescale num den ((a : Int) - b) = (num * 2 ^ (b - a), den * 2 ^ (a - b)) := by
  unfold rescale
  rcases Nat.le_total b a with h | h
  · rw [if_pos (by omega), Nat.sub_eq_zero_of_le h, pow_zero, mul_one,
      show ((a : Int) - b).toNat = a - b by omega]
    rfl
  · rcases Nat.eq_or_lt_of_le h with rfl | h
    · simp
    · rw [if_neg (by omega), Nat.sub_eq_zero_of_le h.le, pow_zero, mul_one,
        show (-((a : Int) - b)).toNat = b - a by omega]
      rfl

theorem two_pow_mul_sub_comm (a b : Nat) : 2 ^ a * 2 ^ (b - a) = 2 ^ b * 2 ^ (a - b) := by
  rw [← pow_add, ← pow_add]
  congr 1
  omega

theorem two_pow_log2_mul_le {n : Nat} (hn : n ≠ 0) (p : Nat) :
    2 ^ p * 2 ^ (n.log2 - p) ≤ n * 2 ^ (p - n.log2) := by
  rw [← two_pow_mul_sub_comm]
  exact Nat.mul_le_mul_right _ (Nat.log2_self_le hn)

/-- A whole number fills the significand at the scale of its leading bit. -/
theorem scaleOf_nat {n : Nat} (hn : n ≠ 0) :
    Format.double.scaleOf n 1 = (n.log2 : Int) - (52 : Nat) := by
  have hscale : max Format.double.minScale
      ((n.log2 : Int) - (Nat.log2 1 : Nat) - Format.double.precision) =
      (n.log2 : Int) - (53 : Nat) := by
    have hone : Nat.log2 1 = 0 := rfl
    have hmin : Format.double.minScale = -1074 := rfl
    have hprecision : Format.double.precision = 53 := rfl
    omega
  have hfills : ¬ n * 2 ^ (53 - n.log2) / (1 * 2 ^ (n.log2 - 53)) <
      Nat.pow 2 Format.double.precision := by
    rw [one_mul, not_lt, Nat.le_div_iff_mul_le (by positivity)]
    exact two_pow_log2_mul_le hn 53
  unfold Format.scaleOf
  dsimp only
  rw [hscale, rescale_sub]
  dsimp only
  rw [if_neg hfills]
  omega

/-- The significand of a whole number. -/
def significandOf (n : Nat) : Nat := n * 2 ^ (52 - n.log2) / 2 ^ (n.log2 - 52)

/-- The significand of a number that is held loses no bit. -/
theorem significandOf_mul {n : Nat} (hn : n ≠ 0) (h : HeldExactly n) :
    significandOf n * 2 ^ (n.log2 - 52) = n * 2 ^ (52 - n.log2) := by
  obtain ⟨m, e, hm, hme⟩ := h
  have hscale : n.log2 - 52 ≤ e := by
    by_contra hlt
    have hsmall : m * 2 ^ e < 2 ^ n.log2 :=
      calc m * 2 ^ e < 2 ^ 53 * 2 ^ e := Nat.mul_lt_mul_of_pos_right hm (by positivity)
        _ = 2 ^ (53 + e) := (pow_add 2 53 e).symm
        _ ≤ 2 ^ n.log2 := Nat.pow_le_pow_right (by decide) (by omega)
    exact absurd (Nat.log2_self_le hn) (by omega)
  refine Nat.div_mul_cancel (Dvd.dvd.mul_right ?_ _)
  rw [hme] at hscale ⊢
  exact Dvd.dvd.mul_left (pow_dvd_pow 2 hscale) m

theorem le_significandOf {n : Nat} (hn : n ≠ 0) : 2 ^ 52 ≤ significandOf n :=
  (Nat.le_div_iff_mul_le (by positivity)).mpr (two_pow_log2_mul_le hn 52)

theorem significandOf_lt (n : Nat) : significandOf n < 2 ^ 53 := by
  rw [significandOf, Nat.div_lt_iff_lt_mul (by positivity)]
  calc n * 2 ^ (52 - n.log2) < 2 ^ (n.log2 + 1) * 2 ^ (52 - n.log2) :=
        Nat.mul_lt_mul_of_pos_right Nat.lt_log2_self (by positivity)
    _ = 2 * (2 ^ n.log2 * 2 ^ (52 - n.log2)) := by ring
    _ = 2 * (2 ^ 52 * 2 ^ (n.log2 - 52)) := by rw [two_pow_mul_sub_comm]
    _ = 2 ^ 53 * 2 ^ (n.log2 - 52) := by ring

theorem divideToEven_of_dvd {num den : Nat} (hden : 0 < den) (h : den ∣ num) :
    divideToEven num den = num / den := by
  unfold divideToEven
  dsimp only
  rw [Nat.mod_eq_zero_of_dvd h]
  exact if_neg (by omega)

/-- The bits of a number that is held: its exponent and its significand. -/
theorem nearest_of_held {n : Nat} (hn : n ≠ 0) (hlimit : n < 2 ^ 64) (h : HeldExactly n) :
    Format.double.nearest n 1 = (n.log2 + 1022) * 2 ^ 52 + significandOf n := by
  have hlog : n.log2 < 64 := (Nat.log2_lt hn).mpr hlimit
  have hdvd : 2 ^ (n.log2 - 52) ∣ n * 2 ^ (52 - n.log2) :=
    Dvd.intro_left _ (significandOf_mul hn h)
  have hscale : ((n.log2 : Int) - (52 : Nat) - Format.double.minScale).toNat = n.log2 + 1022 := by
    have hmin : Format.double.minScale = -1074 := rfl
    omega
  have hinfinity : Format.double.infinity = 2047 * 2 ^ 52 := rfl
  have hlt := significandOf_lt n
  unfold Format.nearest
  rw [if_neg hn, scaleOf_nat hn]
  dsimp only
  rw [rescale_sub]
  dsimp only
  rw [one_mul, divideToEven_of_dvd (by positivity) hdvd, hscale, hinfinity]
  show min _ ((n.log2 + 1022) * 2 ^ 52 + significandOf n) = _
  omega

/-- What a positive word with a leading one in its significand stands for. -/
theorem datum_ofMagnitude {exponent significand : Nat} (hexponent : exponent ≤ 2045)
    (hleast : 2 ^ 52 ≤ significand) (hlt : significand < 2 ^ 53) :
    (Binary.ofMagnitude .double false (exponent * 2 ^ 52 + significand)).datum =
      .finite false significand (Format.double.minScale + exponent) := by
  have hbits : (Binary.ofMagnitude .double false (exponent * 2 ^ 52 + significand)).bits.toNat =
      exponent * 2 ^ 52 + significand := by
    have hwidth : Format.double.width = 64 := rfl
    rw [Binary.ofMagnitude, BitVec.toNat_ofNat, if_neg Bool.false_ne_true, Nat.zero_add, hwidth]
    omega
  have hsign : Format.double.signBit = 2 ^ 63 := rfl
  have hpositive : (Binary.ofMagnitude .double false (exponent * 2 ^ 52 + significand)).isNegative =
      false := by
    rw [Binary.isNegative, hbits, hsign, decide_eq_false_iff_not]
    omega
  have hmagnitude : (Binary.ofMagnitude .double false (exponent * 2 ^ 52 + significand)).magnitude =
      exponent * 2 ^ 52 + significand := by
    rw [Binary.magnitude, hbits, hsign]
    omega
  have hquotient : (exponent * 2 ^ 52 + significand) / Nat.pow 2 (Format.double.precision - 1) =
      exponent + 1 := by
    show _ / 2 ^ 52 = _
    omega
  have hrest : (exponent * 2 ^ 52 + significand) % Nat.pow 2 (Format.double.precision - 1) =
      significand - 2 ^ 52 := by
    show _ % 2 ^ 52 = _
    omega
  have hfinite : exponent + 1 ≠ Nat.pow 2 Format.double.exponentBits - 1 := by
    show exponent + 1 ≠ 2047
    omega
  have hleading : Nat.pow 2 (Format.double.precision - 1) + (significand - 2 ^ 52) = significand :=
    Nat.add_sub_cancel' hleast
  unfold Binary.datum
  dsimp only
  rw [hmagnitude, hquotient, hrest, if_neg hfinite, if_neg (Nat.succ_ne_zero exponent), hpositive,
    hleading]
  rfl

/-! ### Casting back to an integer -/

/-- A number that is held comes back, moved into the range. -/
theorem clampToInt_ofInt {n : Nat} (hlimit : n < 2 ^ 64) (h : HeldExactly n)
    (least greatest : Int) :
    (Binary.ofInt .double n).clampToInt least greatest = max least (min greatest n) := by
  by_cases hn : n = 0
  · subst hn
    have hzero : (Binary.ofInt .double (0 : Nat)).datum =
        .finite false 0 Format.double.minScale := rfl
    have hscale : 0 ≤ -Format.double.minScale := by decide
    rw [Binary.clampToInt, hzero]
    dsimp only
    rw [rescale, if_pos hscale]
    simp
  have hlog : n.log2 < 64 := (Nat.log2_lt hn).mpr hlimit
  have hdatum : (Binary.ofInt .double n).datum =
      .finite false (significandOf n) (n.log2 - (52 : Nat)) := by
    have hword : Binary.ofInt .double n =
        .ofMagnitude .double false ((n.log2 + 1022) * 2 ^ 52 + significandOf n) := by
      rw [← nearest_of_held hn hlimit h]
      rfl
    have hscale : Format.double.minScale + ((n.log2 + 1022 : Nat) : Int) = n.log2 - (52 : Nat) := by
      have hmin : Format.double.minScale = -1074 := rfl
      omega
    rw [hword, datum_ofMagnitude (by omega) (le_significandOf hn) (significandOf_lt n), hscale]
  have hwhole : significandOf n * 2 ^ (n.log2 - 52) / (1 * 2 ^ (52 - n.log2)) = n := by
    rw [significandOf_mul hn h, one_mul, Nat.mul_div_cancel _ (by positivity)]
  unfold Binary.clampToInt
  rw [hdatum]
  dsimp only
  rw [neg_sub, rescale_sub]
  dsimp only
  rw [hwhole, if_neg (by decide)]

/-- The significand of a 64-bit word has 53 bits. -/
theorem significand_lt {x : Binary64} {negative : Bool} {significand : Nat} {scale : Int}
    (h : x.datum = .finite negative significand scale) : significand < 2 ^ 53 := by
  have hrest : x.magnitude % 2 ^ 52 < 2 ^ 52 := Nat.mod_lt _ (by decide)
  have hhidden : Nat.pow 2 (Format.double.precision - 1) = 2 ^ 52 := rfl
  unfold Binary.datum at h
  dsimp only at h
  rw [hhidden] at h
  split at h
  · split at h <;> cases h
  · split at h
    · obtain ⟨-, rfl, -⟩ := Datum.finite.inj h
      omega
    · obtain ⟨-, rfl, -⟩ := Datum.finite.inj h
      omega

/-- What is left of a 64-bit word without its fraction is held by such a word. -/
theorem held_whole {significand : Nat} (h : significand < 2 ^ 53) (scale : Int) :
    HeldExactly ((rescale significand 1 (-scale)).1 / (rescale significand 1 (-scale)).2) := by
  unfold rescale
  split
  · refine heldExactly_of_lt (lt_of_le_of_lt (Nat.div_le_self _ _) h)
  · exact ⟨significand, _, h, Nat.div_one _⟩

/-- What comes back of a word is an end of the range, or a number that is held. -/
theorem held_of_clampToInt (x : Binary64) (least greatest : Int) :
    x.clampToInt least greatest = least ∨ x.clampToInt least greatest = greatest ∨
      HeldExactly (x.clampToInt least greatest).natAbs := by
  unfold Binary.clampToInt
  cases hx : x.datum with
  | notNumber negative payload => exact .inr (.inr ⟨0, 0, by decide, rfl⟩)
  | infinite negative =>
    cases negative with
    | false => exact .inr (.inl rfl)
    | true => exact .inl rfl
  | finite negative significand scale =>
    have hwhole := held_whole (significand_lt hx) scale
    dsimp only
    generalize (rescale significand 1 (-scale)).1 / (rescale significand 1 (-scale)).2 = whole
      at hwhole ⊢
    have hsigned : (if negative = true then -(whole : Int) else whole).natAbs = whole := by
      split <;> omega
    rcases max_choice least (min greatest (if negative = true then -(whole : Int) else whole)) with
      h | h
    · exact .inl h
    · rw [h]
      rcases min_choice greatest (if negative = true then -(whole : Int) else whole) with h' | h'
      · exact .inr (.inl h')
      · exact .inr (.inr (by rwa [h', hsigned]))

theorem clampToInt_bounds {least greatest : Int} (x : Binary64) (hleast : least ≤ 0)
    (hgreatest : 0 ≤ greatest) :
    least ≤ x.clampToInt least greatest ∧ x.clampToInt least greatest ≤ greatest := by
  have hrange : least ≤ greatest := hleast.trans hgreatest
  unfold Binary.clampToInt
  cases x.datum with
  | notNumber negative payload => exact ⟨hleast, hgreatest⟩
  | infinite negative =>
    cases negative with
    | false => exact ⟨hrange, le_rfl⟩
    | true => exact ⟨le_rfl, hrange⟩
  | finite negative significand scale => exact ⟨le_max_left _ _, max_le hrange (min_le_left _ _)⟩

/-- The least and the greatest number of an integer type. -/
def ElementType.intRange? : ElementType → Option (Int × Int)
  | .i8 => some (-128, 127)
  | .i32 => some (-2147483648, 2147483647)
  | .i64 => some (-signedLimit, signedLimit - 1)
  | .u8 => some (0, 255)
  | .f32 | .f64 | .bool => none

section Range

variable {type : ElementType} {least greatest : Int}
  (hrange : type.intRange? = some (least, greatest))
include hrange

theorem ElementType.intRange_bounds : least ≤ 0 ∧ 0 < greatest ∧ greatest < 2 ^ 63 := by
  cases type <;> cases hrange <;> decide

/-- The greatest number of a type comes back: a word holds it, or rounds it up and out of the
range. -/
theorem ElementType.clampToInt_greatest :
    (Binary.ofInt .double greatest).clampToInt least greatest = greatest := by
  cases type <;> cases hrange <;> decide +kernel

/-- The numbers that an integer type gives back from a 64-bit floating-point word. -/
theorem ElementType.clampToInt_eq_iff (n : Nat) :
    (Binary.ofInt .double n).clampToInt least greatest = n ↔
      (n : Int) ≤ greatest ∧ (HeldExactly n ∨ (n : Int) = greatest) := by
  obtain ⟨hleast, hgreatest, hlimit⟩ := intRange_bounds hrange
  constructor
  · intro hback
    have hle := (clampToInt_bounds (Binary.ofInt .double n) hleast hgreatest.le).2
    rw [hback] at hle
    refine ⟨hle, ?_⟩
    have hheld := held_of_clampToInt (Binary.ofInt .double n) least greatest
    rw [hback] at hheld
    obtain h | h | h := hheld
    · -- Only an unsigned type has zero as its least number.
      exact .inl (heldExactly_of_lt (by omega))
    · exact .inr h
    · exact .inl h
  · rintro ⟨hle, hheld | rfl⟩
    · rw [clampToInt_ofInt (by omega) hheld]
      omega
    · exact clampToInt_greatest hrange

/-- A number in every place of a tensor of integers: the type holds what comes back of it. -/
theorem Elements.ints?_replicate (count : Nat) (value : Binary64) :
    (Elements.replicate type count value).ints? =
      some (List.replicate count (value.clampToInt least greatest)) := by
  obtain ⟨hzero, hpos, -⟩ := ElementType.intRange_bounds hrange
  obtain ⟨hleast, hgreatest⟩ := clampToInt_bounds value hzero hpos.le
  cases type <;> cases hrange
  all_goals
    simp only [Elements.replicate, Elements.ints?, Array.toList_replicate, List.map_replicate]
  case i8 => rw [Int8.toInt_ofInt_of_le (by omega) (by omega)]
  case i32 => rw [Int32.toInt_ofInt_of_le (by omega) (by omega)]
  case i64 =>
    have hlimit : (signedLimit : Int) = 2 ^ 63 := rfl
    rw [Int64.toInt_ofInt_of_le (by omega) (by omega)]
  case u8 => rw [UInt8.toNat_ofNat', Nat.mod_eq_of_lt (by omega), Int.toNat_of_nonneg hleast]

end Range

end GraphLowering
