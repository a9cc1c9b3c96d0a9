import GraphLowering.Word

/-!
# Decimal numerals

Numbers as they are written on a command line and in the references of a graph document: a sign
where the number may carry one, then decimal digits and nothing else. Leading zeros are allowed,
blanks and digit separators are not, and a number that leaves its range is refused.

* `digit?` — the value of one decimal digit.
* `digits?` — the value of a non-empty run of digits.
* `size?` — a number below `sizeLimit`, with an optional `+`.
* `int64?` — a number from `-signedLimit` up to the one before `signedLimit`, with an optional sign.
* `splitAt` — the pieces of a text between the occurrences of a dividing character.
-/

namespace GraphLowering.Text

/-- The value of a decimal digit. -/
def digit? (c : Char) : Option Nat :=
  if '0' ≤ c ∧ c ≤ '9' then some (c.toNat - '0'.toNat) else none

/-- The value of a run of digits read after `n`. -/
def digitsAfter? (n : Nat) : List Char → Option Nat
  | [] => some n
  | c :: cs => (digit? c).bind fun d => digitsAfter? (10 * n + d) cs

/-- The value of a run of digits; an empty run has none. -/
def digits? : List Char → Option Nat
  | [] => none
  | c :: cs => digitsAfter? 0 (c :: cs)

/-- A number that a 64-bit size can hold: an optional `+`, then digits. -/
def size? (text : List Char) : Option Nat :=
  let digits := match text with
    | '+' :: rest => rest
    | _ => text
  (digits? digits).filter (· < sizeLimit)

/-- A number that a signed 64-bit word can hold: an optional sign, then digits. -/
def int64? (text : List Char) : Option Int :=
  match text with
  | '-' :: rest => ((digits? rest).filter (· ≤ signedLimit)).map fun n => -(n : Int)
  | '+' :: rest => ((digits? rest).filter (· < signedLimit)).map fun n => (n : Int)
  | _ => ((digits? text).filter (· < signedLimit)).map fun n => (n : Int)

/-- The pieces of a text between the occurrences of `divider`; there is always one more piece than
there are dividers. -/
def splitAt (divider : Char) : List Char → List (List Char)
  | [] => [[]]
  | c :: cs =>
    if c = divider then [] :: splitAt divider cs
    else match splitAt divider cs with
      | [] => [[c]]
      | piece :: pieces => (c :: piece) :: pieces

/-- The text before and after the first occurrence of `divider`. -/
def splitFirst? (divider : Char) : List Char → Option (List Char × List Char)
  | [] => none
  | c :: cs =>
    if c = divider then some ([], cs)
    else (splitFirst? divider cs).map fun (before, after) => (c :: before, after)

/-- The text before and after the last occurrence of `divider`. -/
def splitLast? (divider : Char) : List Char → Option (List Char × List Char)
  | [] => none
  | c :: cs =>
    match splitLast? divider cs with
    | some (before, after) => some (c :: before, after)
    | none => if c = divider then some ([], cs) else none

end GraphLowering.Text
