/-!
# Machine words

The ranges of the 64-bit words that hold sizes and integers.

* `sizeLimit` — sizes are the numbers below it.
* `signedLimit` — signed words hold the numbers from its opposite up to the one before it.
* `signed64` — a size read as a signed word.
-/

namespace GraphLowering

/-- The first number that a 64-bit size cannot hold, `2 ^ 64`. -/
def sizeLimit : Nat := 18446744073709551616

/-- The first number that a signed 64-bit word cannot hold, `2 ^ 63`. -/
def signedLimit : Nat := 9223372036854775808

/-- A 64-bit size read as a signed word: a size from `signedLimit` on is a negative number. -/
def signed64 (n : Nat) : Int := Int.bmod n sizeLimit

/-- Whether a number is in the range of a signed 64-bit word. -/
def fits64 (z : Int) : Bool := -(signedLimit : Int) ≤ z && z < signedLimit

end GraphLowering
