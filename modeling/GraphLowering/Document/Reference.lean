import GraphLowering.Error
import GraphLowering.Text.Numeral

/-!
# References to inputs

A node of a graph document lists its inputs as texts. `name` is output 0 of the node with that name,
`name:k` is its output `k`, and `^name` only orders the node after the other. A name may hold
colons; the last one divides it from the output.
-/

namespace GraphLowering

/-- An input of a node in a graph document. -/
inductive InputRef where
  | data (node : String) (output : Nat)
  | control (node : String)
  deriving DecidableEq

namespace InputRef

/-- The reference that a list of characters writes. -/
def ofChars? : List Char → Option InputRef
  | '^' :: name => if name.isEmpty then none else some (.control (String.ofList name))
  | text => do
    let (name, output) ← match Text.splitLast? ':' text with
      | some (name, digits) => (Text.size? digits).map fun output => (name, output)
      | none => some (text, 0)
    if name.isEmpty then none else some (.data (String.ofList name) output)

/-- The reference that a text writes. -/
def parse (text : String) : Except Error InputRef :=
  match ofChars? text.toList with
  | some ref => .ok ref
  | none => .error (.invalid (.malformedReference text))

end InputRef

end GraphLowering
