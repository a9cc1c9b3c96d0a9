import GraphLowering.Binary.Format

/-!
# Shortest decimals

The decimal with the fewest digits that rounds back to a given word, and among those the one nearest
to the word's value.

* `Decimal` — `digits * 10 ^ exponent`.
* `shortest` — the shortest decimal of a positive finite value `significand * 2 ^ scale`.
* `DecimalStyle` — how a decimal is laid out as text.
-/

namespace GraphLowering

/-- The number `digits * 10 ^ exponent`. -/
structure Decimal where
  digits : Nat
  exponent : Int
  deriving DecidableEq

namespace Decimal

/-- The decimal as a fraction. -/
def ratio (d : Decimal) : Nat × Nat :=
  if 0 ≤ d.exponent then (d.digits * Nat.pow 10 d.exponent.toNat, 1)
  else (d.digits, Nat.pow 10 (-d.exponent).toNat)

/-- How many decimal digits a number has; zero has none. -/
def digitCount (n : Nat) : Nat :=
  if n = 0 then 0 else (Nat.toDigits 10 n).length

/-- The exponent of the leading decimal digit of a positive fraction. -/
def leadingExponent (num den : Nat) : Int :=
  if den ≤ num then (digitCount (num / den) : Int) - 1
  else -(digitCount ((den + num - 1) / num - 1) : Int)

/-- The decimal without trailing zeros among its digits; `bound` is how many it may drop. -/
def dropZeros : (bound : Nat) → Decimal → Decimal
  | 0, d => d
  | bound + 1, d =>
    if d.digits ≠ 0 ∧ d.digits % 10 = 0 then dropZeros bound ⟨d.digits / 10, d.exponent + 1⟩ else d

end Decimal

/-- The values that round to one word: those between two neighbouring halfway points, the ends
counted where the word's significand is even. -/
structure RoundingInterval where
  low : Nat × Nat
  high : Nat × Nat
  closed : Bool

namespace RoundingInterval

/-- The interval of the word of format `f` with the given significand and scale. Below a power of
two the words lie twice as close. -/
def of (f : Format) (significand : Nat) (scale : Int) : RoundingInterval where
  low :=
    if significand = Nat.pow 2 (f.precision - 1) ∧ f.minScale < scale then
      rescale (4 * significand - 1) 1 (2 - scale)
    else rescale (2 * significand - 1) 1 (1 - scale)
  high := rescale (2 * significand + 1) 1 (1 - scale)
  closed := significand % 2 = 0

/-- Whether a fraction lies in the interval. -/
def contains (interval : RoundingInterval) (x : Nat × Nat) : Bool :=
  let below := interval.low.1 * x.2
  let above := interval.high.1 * x.2
  if interval.closed then below ≤ x.1 * interval.low.2 && x.1 * interval.high.2 ≤ above
  else below < x.1 * interval.low.2 && x.1 * interval.high.2 < above

end RoundingInterval

/-- The nearer of the two neighbours of `num / den` on the grid of the multiples of
`10 ^ exponent`, if one lies in the interval; a tie goes to the even neighbour. -/
def nearestOnGrid? (interval : RoundingInterval) (num den : Nat) (exponent : Int) :
    Option Decimal :=
  let unit := (Decimal.mk 1 exponent).ratio
  let floor := num * unit.2 / (den * unit.1)
  let rest := num * unit.2 % (den * unit.1)
  let lower : Decimal := ⟨floor, exponent⟩
  let upper : Decimal := ⟨floor + 1, exponent⟩
  match interval.contains lower.ratio, interval.contains upper.ratio with
  | false, false => none
  | true, false => some lower
  | false, true => some upper
  | true, true =>
    if 2 * rest < den * unit.1 ∨ (2 * rest = den * unit.1 ∧ floor % 2 = 0) then some lower
    else some upper

/-- The shortest decimal that rounds to the word of format `f` with the given positive significand
and scale. Seventeen digits tell any two words of the formats in use apart. -/
def shortest (f : Format) (significand : Nat) (scale : Int) : Decimal :=
  let interval := RoundingInterval.of f significand scale
  let (num, den) := rescale significand 1 (-scale)
  let lead := Decimal.leadingExponent num den
  let found := (List.range 17).findSome? fun (n : Nat) =>
    nearestOnGrid? interval num den (lead - (n : Int))
  (found.getD ⟨significand, scale⟩).dropZeros 17

/-- How a decimal is written: the exponents of the leading digit that are written out in full, and
what stands before the other exponents. -/
structure DecimalStyle where
  leastPlain : Int
  greatestPlain : Int
  mark : String
  positiveSign : String

namespace DecimalStyle

/-- The digits with a point after the first `whole` of them, zeros filled in on either side. A whole
number ends in `.0`. -/
def plain (digits : String) (whole : Int) : String :=
  if whole ≤ 0 then "0." ++ "".pushn '0' (-whole).toNat ++ digits
  else
    let width := whole.toNat
    if digits.length ≤ width then digits.pushn '0' (width - digits.length) ++ ".0"
    else String.ofList (digits.toList.take width) ++ "." ++ String.ofList (digits.toList.drop width)

/-- One digit, the others behind a point, and the exponent. -/
def scientific (style : DecimalStyle) (digits : String) (exponent : Int) : String :=
  let tail := digits.toList.drop 1
  let significand := String.ofList (digits.toList.take 1) ++
    (if tail.isEmpty then "" else "." ++ String.ofList tail)
  significand ++ style.mark ++ (if exponent < 0 then "" else style.positiveSign) ++ toString exponent

/-- The text of a positive decimal. -/
def write (style : DecimalStyle) (d : Decimal) : String :=
  let digits := toString d.digits
  let lead := (digits.length : Int) - 1 + d.exponent
  if style.leastPlain ≤ lead ∧ lead ≤ style.greatestPlain then plain digits (lead + 1)
  else style.scientific digits lead

/-- The text of a finite word: a sign for the negative words, zero among them, and the shortest
decimal. Other words have no text of this kind. -/
def finiteText? {f : Format} (style : DecimalStyle) (x : Binary f) : Option String :=
  match x.datum with
  | .finite negative significand scale =>
    let body := if significand = 0 then "0.0" else style.write (shortest f significand scale)
    some ((if negative then "-" else "") ++ body)
  | _ => none

end DecimalStyle

end GraphLowering
