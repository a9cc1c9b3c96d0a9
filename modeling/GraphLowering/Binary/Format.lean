/-!
# Binary floating-point words

A binary floating-point format packs a sign, an exponent and a significand into one word. A word is
kept as its bits, so that two zeros, or two words that are not numbers, stay apart, and arithmetic
on words is done exactly on natural numbers and rounded once.

* `Format` — the two parameters of a format, with `Format.single` and `Format.double`.
* `Binary` — a word of a format.
* `Binary.datum` — what a word stands for: a finite value `± significand * 2 ^ scale`, an infinity,
  or no number.
* `Format.nearest` — the magnitude closest to a fraction, ties going to the even significand.
-/

namespace GraphLowering

/-- A binary format: how many bits the significand has, the leading one counted, and how many the
exponent. -/
structure Format where
  precision : Nat
  exponentBits : Nat
  deriving DecidableEq

namespace Format

/-- The format of 32-bit words. -/
def single : Format := ⟨24, 8⟩

/-- The format of 64-bit words. -/
def double : Format := ⟨53, 11⟩

/-- The bits of a word: one for the sign, those of the exponent, and the significand without its
leading one. -/
def width (f : Format) : Nat := f.exponentBits + f.precision

/-- The scale of the least positive word: every finite value is a multiple of `2 ^ minScale`. -/
def minScale (f : Format) : Int := 3 - Nat.pow 2 (f.exponentBits - 1) - f.precision

/-- The bits of the positive infinity. The bits of the positive finite words are the numbers below
it, in the order of their values. -/
def infinity (f : Format) : Nat := (Nat.pow 2 f.exponentBits - 1) * Nat.pow 2 (f.precision - 1)

/-- The bit that makes a word negative. -/
def signBit (f : Format) : Nat := Nat.pow 2 (f.width - 1)

/-- The bit that marks a word that is not a number as quiet. -/
def quietBit (f : Format) : Nat := Nat.pow 2 (f.precision - 2)

end Format

/-- The quotient of two numbers, rounded to the nearest number, a tie to the even one. -/
def divideToEven (num den : Nat) : Nat :=
  let quotient := num / den
  let rest := num % den
  if den < 2 * rest ∨ (2 * rest = den ∧ quotient % 2 = 1) then quotient + 1 else quotient

/-- The fraction `num / den` divided by `2 ^ scale`. -/
def rescale (num den : Nat) (scale : Int) : Nat × Nat :=
  if 0 ≤ scale then (num, den * Nat.pow 2 scale.toNat) else (num * Nat.pow 2 (-scale).toNat, den)

namespace Format

/-- The scale at which a fraction fills the significand: its quotient there is below
`2 ^ precision`, and at least half of that unless the scale is the least one. -/
def scaleOf (f : Format) (num den : Nat) : Int :=
  let scale := max f.minScale ((num.log2 : Int) - den.log2 - f.precision)
  let (n, d) := rescale num den scale
  if n / d < Nat.pow 2 f.precision then scale else scale + 1

/-- The bits of the positive word nearest to `num / den`. A fraction too large for the format gives
the infinity. A significand that rounds up to `2 ^ precision` carries into the exponent by itself,
since the bits of neighbouring words are neighbouring numbers. -/
def nearest (f : Format) (num den : Nat) : Nat :=
  if num = 0 then 0
  else
    let scale := f.scaleOf num den
    let (n, d) := rescale num den scale
    min f.infinity ((scale - f.minScale).toNat * Nat.pow 2 (f.precision - 1) + divideToEven n d)

end Format

/-- A word of a binary format. -/
structure Binary (f : Format) where
  bits : BitVec f.width
  deriving DecidableEq

/-- What a word of a binary format stands for. -/
inductive Datum where
  | finite (negative : Bool) (significand : Nat) (scale : Int)
  | infinite (negative : Bool)
  | notNumber (negative : Bool) (payload : Nat)
  deriving DecidableEq

namespace Binary

variable {f : Format}

/-- The word with the given sign and magnitude bits. -/
def ofMagnitude (f : Format) (negative : Bool) (magnitude : Nat) : Binary f :=
  ⟨BitVec.ofNat f.width ((if negative then f.signBit else 0) + magnitude)⟩

/-- Whether the sign bit is set. -/
def isNegative (x : Binary f) : Bool := f.signBit ≤ x.bits.toNat

/-- The bits of the word without its sign. -/
def magnitude (x : Binary f) : Nat := x.bits.toNat % f.signBit

/-- What the word stands for. -/
def datum (x : Binary f) : Datum :=
  let hidden := Nat.pow 2 (f.precision - 1)
  let exponent := x.magnitude / hidden
  let fraction := x.magnitude % hidden
  if exponent = Nat.pow 2 f.exponentBits - 1 then
    if fraction = 0 then .infinite x.isNegative else .notNumber x.isNegative fraction
  else if exponent = 0 then .finite x.isNegative fraction f.minScale
  else .finite x.isNegative (hidden + fraction) (f.minScale + (exponent - 1 : Nat))

/-- The word nearest to `± num / den`. -/
def ofRatio (f : Format) (negative : Bool) (num den : Nat) : Binary f :=
  ofMagnitude f negative (f.nearest num den)

/-- The word nearest to an integer. -/
def ofInt (f : Format) (z : Int) : Binary f :=
  ofRatio f (z < 0) z.natAbs 1

/-- The word nearest to `± significand * 2 ^ scale`. -/
def ofScaled (f : Format) (negative : Bool) (significand : Nat) (scale : Int) : Binary f :=
  let (num, den) := rescale significand 1 (-scale)
  ofRatio f negative num den

/-- Whether the word is one of the two zeros. -/
def isZero (x : Binary f) : Bool := x.magnitude = 0

/-- Whether two words are equal as numbers: the two zeros are, and a word that is not a number
equals nothing, not even itself. -/
def sameNumber (x y : Binary f) : Bool :=
  x.magnitude ≤ f.infinity && y.magnitude ≤ f.infinity &&
    (x.bits = y.bits || (x.isZero && y.isZero))

/-- The nearest word of another format. A word that is not a number keeps its sign and the leading
bits of its payload, and becomes quiet. -/
def convert (target : Format) (x : Binary f) : Binary target :=
  match x.datum with
  | .finite negative significand scale => ofScaled target negative significand scale
  | .infinite negative => ofMagnitude target negative target.infinity
  | .notNumber negative payload =>
    let kept := payload * Nat.pow 2 (target.precision - 1) / Nat.pow 2 (f.precision - 1)
    ofMagnitude target negative (target.infinity + (target.quietBit ||| kept))

/-- The value without its fraction, moved into the range from `least` to `greatest`. A word that is
not a number gives zero. -/
def clampToInt (least greatest : Int) (x : Binary f) : Int :=
  match x.datum with
  | .finite negative significand scale =>
    let (num, den) := rescale significand 1 (-scale)
    let whole : Int := (num / den : Nat)
    max least (min greatest (if negative then -whole else whole))
  | .infinite negative => if negative then least else greatest
  | .notNumber _ _ => 0

end Binary

/-- A 32-bit floating-point word. -/
abbrev Binary32 := Binary .single

/-- A 64-bit floating-point word. -/
abbrev Binary64 := Binary .double

end GraphLowering
