import GraphLowering.Binary.Decimal
import GraphLowering.Binary.Literal

/-!
# JSON trees and values

A `Tree` is a JSON text as it is written: numerals with their digits, objects with their members in
order and repetitions kept, and strings that may fail to be text, since an escape can name half of a
surrogate pair. A `Value` is what a tree stands for once it is looked at: numbers in range, strings
of characters, and objects with one member for each key, ordered by key.

* `Numeral`, `Tree` — the text as written.
* `WordRange` — the integers that a word holds.
* `Number`, `Value` — what it stands for.
* `Numeral.number?`, `Tree.value?` — from the one to the other.
* `Value.render` — the compact text of a value.
-/

namespace GraphLowering.Json

/-- A numeral: its sign, the digits before and after the point, and the exponent. -/
structure Numeral where
  negative : Bool
  whole : List Nat
  fraction : List Nat
  exponent : Option Int
  deriving DecidableEq

/-- A JSON text as it is written. A string without a text holds an unpaired surrogate. -/
inductive Tree where
  | null
  | bool (value : Bool)
  | number (numeral : Numeral)
  | string (text : Option String)
  | array (items : List Tree)
  | object (members : List (Option String × Tree))

/-- The integers that a signed or an unsigned 64-bit word holds. -/
def WordRange (value : Int) : Prop := -(signedLimit : Int) ≤ value ∧ value < sizeLimit

instance (value : Int) : Decidable (WordRange value) :=
  inferInstanceAs (Decidable (-(signedLimit : Int) ≤ value ∧ value < sizeLimit))

/-- A JSON number: an integer that a word holds, or a finite 64-bit word. -/
inductive Number where
  | integer (value : Int) (range : WordRange value)
  | real (value : Binary64)
  deriving DecidableEq

/-- What a JSON text stands for. The members of an object are ordered by key. -/
inductive Value where
  | null
  | bool (value : Bool)
  | number (value : Number)
  | string (text : String)
  | array (items : List Value)
  | object (members : List (String × Value))

namespace Numeral

/-- The number of a run of digits. -/
def natural (digits : List Nat) : Nat := digits.foldl (fun n d => 10 * n + d) 0

/-- The digits before the point with their sign. -/
def signed (n : Numeral) : Int :=
  if n.negative then -(natural n.whole : Int) else natural n.whole

/-- Whether a numeral stands for an integer: it has no point and no exponent, and is no negative
zero. -/
def isIntegral (n : Numeral) : Bool :=
  n.fraction.isEmpty && n.exponent.isNone && !(n.negative && n.signed = 0)

/-- The integer of a numeral, if a word holds it. -/
def integer? (n : Numeral) : Option { value : Int // WordRange value } :=
  if n.isIntegral then
    if range : WordRange n.signed then some ⟨n.signed, range⟩ else none
  else none

/-- The number of a numeral; one that is too large for a finite word has none. -/
def number? (n : Numeral) : Option Number :=
  match n.integer? with
  | some ⟨value, range⟩ => some (.integer value range)
  | none => (Literal.ofDigits? n.negative n.whole n.fraction (n.exponent.getD 0)).map .real

end Numeral

namespace Number

/-- The integer of a number in the range of a signed 64-bit word. -/
def int64? : Number → Option Int
  | integer value _ => if value < signedLimit then some value else none
  | real _ => none

/-- The number as the nearest word. -/
def double : Number → Binary64
  | integer value _ => .ofInt .double value
  | real value => value

/-- The number as the nearest 32-bit word; a real number has been rounded to 64 bits before. -/
def single : Number → Binary32
  | integer value _ => .ofInt .single value
  | real value => value.convert .single

/-- Numbers are written as the shortest decimal, in full up to sixteen digits and down to five
places, and with an exponent otherwise. -/
def style : DecimalStyle := ⟨-5, 15, "e", "+"⟩

/-- The text of a number. -/
def render : Number → String
  | integer value _ => toString value
  | real value => (style.finiteText? value).getD "null"

end Number

/-- Sets the member with a key in an object ordered by key. -/
def setMember {α : Type} (key : String) (value : α) : List (String × α) → List (String × α)
  | [] => [(key, value)]
  | (k, v) :: rest =>
    if key < k then (key, value) :: (k, v) :: rest
    else if key = k then (key, value) :: rest
    else (k, v) :: setMember key value rest

/-- Members ordered by key; the last of several with one key counts. -/
def orderMembers {α : Type} (members : List (String × α)) : List (String × α) :=
  members.foldl (fun object (key, value) => setMember key value object) []

/-- The value of a tree in which no more than `depth` arrays and objects lie within each other. -/
def Tree.value? : (depth : Nat) → Tree → Option Value
  | _, .null => some .null
  | _, .bool value => some (.bool value)
  | _, .number numeral => numeral.number?.map .number
  | _, .string text => text.map .string
  | 0, .array _ => none
  | 0, .object _ => none
  | depth + 1, .array items => (items.mapM (value? depth)).map .array
  | depth + 1, .object members => do
    let members ← members.mapM fun (key, tree) => do
      return (← key, ← value? depth tree)
    return .object (orderMembers members)

/-- A hexadecimal digit. -/
def hexDigit (n : Nat) : Char := Nat.digitChar n

/-- A character inside a quoted string. -/
def escape (c : Char) : String :=
  match c with
  | '"' => "\\\""
  | '\\' => "\\\\"
  | '\n' => "\\n"
  | '\r' => "\\r"
  | '\t' => "\\t"
  | _ =>
    if c.toNat = 8 then "\\b"
    else if c.toNat = 12 then "\\f"
    else if c.toNat < 0x20 then
      "\\u00" ++ String.ofList [hexDigit (c.toNat / 16), hexDigit (c.toNat % 16)]
    else String.singleton c

/-- A string between quotes. -/
def quote (text : String) : String :=
  "\"" ++ String.join (text.toList.map escape) ++ "\""

namespace Value

mutual

/-- The compact text of a value. -/
def render : Value → String
  | .null => "null"
  | .bool value => if value then "true" else "false"
  | .number value => value.render
  | .string text => quote text
  | .array items => "[" ++ ",".intercalate (renderItems items) ++ "]"
  | .object members => "\x7b" ++ ",".intercalate (renderMembers members) ++ "\x7d"

/-- The texts of the items of an array. -/
def renderItems : List Value → List String
  | [] => []
  | item :: items => render item :: renderItems items

/-- The texts of the members of an object. -/
def renderMembers : List (String × Value) → List String
  | [] => []
  | (key, value) :: members => (quote key ++ ":" ++ render value) :: renderMembers members

end

/-- The integer of a number in the range of a signed 64-bit word. -/
def int64? : Value → Option Int
  | .number value => value.int64?
  | _ => none

/-- The number as the nearest word. -/
def double? : Value → Option Binary64
  | .number value => some value.double
  | _ => none

/-- The truth value. -/
def bool? : Value → Option Bool
  | .bool value => some value
  | _ => none

end Value

end GraphLowering.Json
