import GraphLowering.Binary.Format
import GraphLowering.Word

/-!
# Reading decimal literals

The value of a decimal literal as a 64-bit word. As many of its leading digits as a 64-bit integer
holds become a word, and that word is multiplied or divided by a power of ten, itself a word. Each
of these steps rounds to the nearest word, so a literal of few digits gives the word nearest to it,
and a long one, or one with a large exponent, a word close by.

* `absorb` — the leading digits that a 64-bit integer holds.
* `scaleByTen?` — a word times a power of ten.
* `ofDigits?` — the word of a literal, if it is finite.
-/

namespace GraphLowering

namespace Binary

variable {f : Format}

/-- The magnitude of a finite word as a fraction; infinities and words that are no numbers have
none and give zero. -/
def ratio (x : Binary f) : Nat × Nat :=
  match x.datum with
  | .finite _ significand scale => rescale significand 1 (-scale)
  | _ => (0, 1)

/-- The product of two positive finite words. -/
def product (x y : Binary f) : Binary f :=
  ofRatio f false (x.ratio.1 * y.ratio.1) (x.ratio.2 * y.ratio.2)

/-- The quotient of two positive finite words. -/
def quotient (x y : Binary f) : Binary f :=
  ofRatio f false (x.ratio.1 * y.ratio.2) (x.ratio.2 * y.ratio.1)

end Binary

namespace Literal

/-- The word nearest to a power of ten. -/
def powerOfTen (k : Nat) : Binary64 := .ofRatio .double false (Nat.pow 10 k) 1

/-- The greatest exponent whose power of ten is a finite word. -/
def greatestPower : Nat := 308

/-- Appends digits to a number as long as it stays below `sizeLimit`, and gives the digits that are
left. -/
def absorb (n : Nat) : List Nat → Nat × List Nat
  | [] => (n, [])
  | d :: ds => if 10 * n + d < sizeLimit then absorb (10 * n + d) ds else (n, d :: ds)

/-- A positive word times `10 ^ exponent`, if that is finite. An exponent below the greatest power
is taken in steps; two of them make any 64-bit integer vanish, so `bound` need not be large. -/
def scaleByTen? : (bound : Nat) → Binary64 → (exponent : Int) → Option Binary64
  | bound, x, exponent =>
    if exponent.natAbs ≤ greatestPower then
      if 0 ≤ exponent then
        let y := x.product (powerOfTen exponent.toNat)
        if y.magnitude = Format.double.infinity then none else some y
      else some (x.quotient (powerOfTen exponent.natAbs))
    else if x.isZero then some x
    else if 0 ≤ exponent then none
    else match bound with
      | 0 => some x
      | bound + 1 =>
        scaleByTen? bound (x.quotient (powerOfTen greatestPower)) (exponent + greatestPower)

/-- The word of the literal with the given digits before and after the point and the given
exponent, if it is finite. -/
def ofDigits? (negative : Bool) (whole fraction : List Nat) (exponent : Int) : Option Binary64 :=
  let (leading, dropped) := absorb 0 whole
  let (significand, unread) := absorb leading fraction
  let shift : Int := dropped.length - (fraction.length - unread.length : Nat)
  (scaleByTen? 3 (.ofInt .double significand) (shift + exponent)).map fun x =>
    .ofMagnitude .double negative x.magnitude

end Literal

end GraphLowering
