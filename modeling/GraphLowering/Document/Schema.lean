import GraphLowering.Json.Reader
import GraphLowering.Shape

/-!
# Graph documents

A graph document is a JSON text that lists the definitions of a graph's nodes. A record may be
written as an object, whose unknown members are passed over, or as an array of its fields in order.

* `TensorDef`, `AttrDef`, `NodeDef`, `Document` — the definitions.
* `fields?` — the fields of a record in either form.
* `Document.read?` — the document of a text.
-/

namespace GraphLowering

open Json

/-- A tensor as a document gives it: the name of its type, its shape, and its values. -/
structure TensorDef where
  type : String
  shape : Shape
  values : List Value

/-- An attribute as a document gives it. -/
inductive AttrDef where
  | int (value : Int)
  | float (value : Binary32)
  | bool (value : Bool)
  | text (value : String)
  | type (name : String)
  | shape (dims : List Int)
  | ints (values : List Int)
  | tensor (value : TensorDef)

/-- A node as a document gives it. The attributes are ordered by key. -/
structure NodeDef where
  name : String
  op : String
  inputs : List String
  attrs : List (String × AttrDef)
  outputs : Option Nat

/-- The nodes that a document defines. -/
structure Document where
  nodes : List NodeDef

/-- How many arrays and objects may lie within each other. -/
def nestingLimit : Nat := 127

/-- How many arrays and objects enclose a value of a tensor: the document, its list of nodes, a node,
its attributes, an attribute, a tensor, and the list of values. -/
def valueNesting : Nat := 7

/-- The text of a string. -/
def text? : Tree → Option String
  | .string text => text
  | _ => none

/-- A truth value. -/
def bool? : Tree → Option Bool
  | .bool value => some value
  | _ => none

/-- An integer in the range of a signed 64-bit word. -/
def int64? : Tree → Option Int
  | .number numeral => (numeral.integer?.map Subtype.val).filter (· < signedLimit)
  | _ => none

/-- An integer in the range of a 64-bit size. -/
def size? : Tree → Option Nat
  | .number numeral => ((numeral.integer?.map Subtype.val).filter (0 ≤ ·)).map Int.toNat
  | _ => none

/-- A number as a 32-bit word. -/
def single? : Tree → Option Binary32
  | .number numeral => numeral.number?.map Number.single
  | _ => none

/-- A list of items of one kind. -/
def list? {α : Type} (item? : Tree → Option α) : Tree → Option (List α)
  | .array items => items.mapM item?
  | _ => none

/-- The members of an object, all of whose keys must be text. -/
def members? : Tree → Option (List (String × Tree))
  | .object members => members.mapM fun (key, tree) => key.map fun key => (key, tree)
  | _ => none

/-- The fields of a record with the given names, as far as they are there. An array holds the fields
in order, `least` of them or more; an object holds each at most once. -/
def fields? (names : List String) (least : Nat) : Tree → Option (List (Option Tree))
  | .array items =>
    if least ≤ items.length ∧ items.length ≤ names.length then
      some ((List.range names.length).map fun i => items[i]?)
    else none
  | tree => do
    let members ← members? tree
    names.mapM fun name =>
      match members.filter fun (key, _) => key = name with
      | [] => some none
      | [(_, field)] => some (some field)
      | _ => none

/-- A field with a default. -/
def fieldOr {α : Type} (default : α) (read? : Tree → Option α) : Option Tree → Option α
  | none => some default
  | some field => read? field

/-- A field without a default. -/
def field? {α : Type} (read? : Tree → Option α) (field : Option Tree) : Option α :=
  field.bind read?

/-- A number of outputs, which may be left open. -/
def outputs? : Tree → Option (Option Nat)
  | .null => some none
  | tree => (size? tree).map some

/-- A list of integers under the key `i`. -/
def intList? (tree : Tree) : Option (List Int) := do
  match ← fields? ["i"] 0 tree with
  | [values] => fieldOr [] (list? int64?) values
  | _ => none

/-- A tensor. -/
def tensorDef? (tree : Tree) : Option TensorDef := do
  match ← fields? ["dtype", "shape", "val"] 1 tree with
  | [type, shape, values] =>
    return {
      type := ← field? text? type
      shape := ← fieldOr [] (list? size?) shape
      values := ← fieldOr [] (list? (Tree.value? (nestingLimit - valueNesting))) values }
  | _ => none

/-- An attribute: an object whose only key names the kind. -/
def attrDef? (tree : Tree) : Option AttrDef := do
  match ← members? tree with
  | [("i", value)] => (int64? value).map .int
  | [("f", value)] => (single? value).map .float
  | [("b", value)] => (bool? value).map .bool
  | [("s", value)] => (text? value).map .text
  | [("type", value)] => (text? value).map .type
  | [("shape", value)] => (list? int64? value).map .shape
  | [("list", value)] => (intList? value).map .ints
  | [("tensor", value)] => (tensorDef? value).map .tensor
  | _ => none

/-- The attributes of a node, ordered by key; the last of several with one key counts. -/
def attrDefs? (tree : Tree) : Option (List (String × AttrDef)) := do
  let members ← members? tree
  let attrs ← members.mapM fun (key, tree) => (attrDef? tree).map fun attr => (key, attr)
  return orderMembers attrs

/-- A node. In an array none of its fields may be left out. -/
def nodeDef? (tree : Tree) : Option NodeDef := do
  match ← fields? ["name", "op", "input", "attr", "num_outputs"] 5 tree with
  | [name, op, inputs, attrs, outputs] =>
    return {
      name := ← field? text? name
      op := ← field? text? op
      inputs := ← fieldOr [] (list? text?) inputs
      attrs := ← fieldOr [] attrDefs? attrs
      outputs := ← fieldOr none outputs? outputs }
  | _ => none

/-- The document that a tree writes. -/
def Document.ofTree? (tree : Tree) : Option Document := do
  match ← fields? ["node"] 0 tree with
  | [nodes] => return ⟨← fieldOr [] (list? nodeDef?) nodes⟩
  | _ => none

/-- The document that a text writes. -/
def Document.read? (text : String) : Option Document :=
  (Tree.read? text).bind Document.ofTree?

end GraphLowering
