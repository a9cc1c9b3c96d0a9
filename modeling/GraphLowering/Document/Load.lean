import GraphLowering.Document.Reference
import GraphLowering.Document.Schema
import GraphLowering.Source.Graph

/-!
# Loading a graph document

A document becomes a graph in three passes: all references to inputs are read, so that the number of
outputs that consumers ask of each node is known; the nodes are added; the edges are added. A
reference may therefore name a node that the document defines later.

* `TensorDef.tensor`, `AttrDef.attribute` — attributes of the graph from those of the document.
* `NodeDef.arity` — how many outputs a node declares.
* `Document.graph` — the graph of a document.
* `loadGraph` — the graph of a text.
-/

namespace GraphLowering

open Json

/-- The data type with a declared name. -/
def namedType (name : String) : Except Error DataType :=
  match DataType.ofName? name with
  | some type => .ok type
  | none => .error (.invalid (.unknownType name))

namespace TensorDef

/-- The values of a tensor: a single one fills the whole shape. -/
def expanded (t : TensorDef) : List Value :=
  match t.values with
  | [value] => List.replicate t.shape.elements value
  | values => values

/-- Every value converted, or the first one that is not of the tensor's type. -/
def convert {α : Type} (t : TensorDef) (type : DataType) (read? : Value → Option α) :
    Except Error (Array α) := do
  let values ← t.expanded.mapM fun value =>
    match read? value with
    | some a => .ok a
    | none => .error (.invalid (.literalValue value.render type))
  return values.toArray

/-- The elements of a tensor. An integer is taken modulo the width of its type, and a 32-bit
floating-point word is rounded from a 64-bit one. -/
def elements (t : TensorDef) (type : DataType) : Except Error Elements :=
  match type with
  | .float => return .f32 (← t.convert type fun v => v.double?.map (·.convert .single))
  | .double => return .f64 (← t.convert type Value.double?)
  | .int8 => return .i8 (← t.convert type fun v => v.int64?.map Int8.ofInt)
  | .int32 => return .i32 (← t.convert type fun v => v.int64?.map Int32.ofInt)
  | .int64 => return .i64 (← t.convert type fun v => v.int64?.map Int64.ofInt)
  | .uint8 => return .u8 (← t.convert type fun v => v.int64?.map UInt8.ofInt)
  | .bool => return .bool (← t.convert type Value.bool?)
  | .string => throw (.invalid .stringTensor)

/-- The tensor of a definition. -/
def tensor (t : TensorDef) : Except Error Tensor := do
  let type ← namedType t.type
  Tensor.ofElements t.shape (← t.elements type)

end TensorDef

/-- The attribute of a definition. -/
def AttrDef.attribute : AttrDef → Except Error Attribute
  | .int value => return .int value
  | .float value => return .float value
  | .bool value => return .bool value
  | .text value => return .text value
  | .type name => return .type (← namedType name)
  | .shape dims => return .shape dims
  | .ints values => return .ints values
  | .tensor value => return .tensor (← value.tensor)

/-- The greatest output number that a document asks of each node. -/
abbrev References := NameTable Nat

namespace NodeDef

/-- The references to the inputs of a node. -/
def references (d : NodeDef) : Except Error (List InputRef) := d.inputs.mapM InputRef.parse

/-- How many outputs a node declares: as many as it says, as many as attribute `num_split` says, or
as many as its consumers ask for, and one if there are none. -/
def arity (d : NodeDef) (referenced : Option Nat) : Nat :=
  match d.outputs with
  | some outputs => outputs
  | none =>
    let asked := match referenced with
      | some greatest => greatest + 1
      | none => 1
    match d.attrs.lookup "num_split" with
    | some (.int pieces) => if 0 ≤ pieces then pieces.toNat else asked
    | _ => asked

/-- The attributes of a node, converted in the order of their keys. -/
def attributes (d : NodeDef) : Except Error (NameTable Attribute) := do
  let entries ← d.attrs.mapM fun (key, attr) => do
    return (key, ← attr.attribute)
  return ⟨entries⟩

end NodeDef

/-- Takes note of one reference. -/
def References.note (references : References) : InputRef → References
  | .control _ => references
  | .data name output =>
    references.insert name (max output ((references.get? name).getD output))

/-- Adds the node of a definition. -/
def addNodeDef (references : References) (d : NodeDef) : Source.Build Unit := do
  let attrs ← d.attributes
  let outputs := d.arity (references.get? d.name)
  discard (Source.addNode { name := d.name, op := d.op, attrs, outputs })

/-- The node that an input of `consumer` names. -/
def producerOf (name consumer : String) : Source.Build Nat := do
  match (← get).find? name with
  | some i => return i
  | none => throw (.invalid (.unknownProducer name consumer))

/-- Adds the edges into a node, the data inputs taking the slots in order. -/
def addInputs (consumer : String) (dst : Nat) : (slot : Nat) → List InputRef → Source.Build Unit
  | _, [] => return
  | slot, .data name output :: rest => do
    let src ← producerOf name consumer
    discard (Source.addEdge src output dst slot)
    addInputs consumer dst (slot + 1) rest
  | slot, .control name :: rest => do
    let src ← producerOf name consumer
    discard (Source.addControl src dst)
    addInputs consumer dst slot rest

/-- Adds the edges into the node of a definition. -/
def addEdges (d : NodeDef) : Source.Build Unit := do
  match (← get).find? d.name with
  | none => throw (.invalid (.nodeLost d.name))
  | some dst => addInputs d.name dst 0 (← d.references)

namespace Document

/-- The greatest output number that the document asks of each node. -/
def references (doc : Document) : Except Error References := do
  let all ← doc.nodes.mapM NodeDef.references
  return all.flatten.foldl References.note .empty

/-- Adds the nodes and then the edges of a document. -/
def build (doc : Document) (references : References) : Source.Build Unit := do
  doc.nodes.forM (addNodeDef references)
  doc.nodes.forM addEdges

/-- The graph of a document. -/
def graph (doc : Document) : Except Error Source.Graph := do
  let references ← doc.references
  match doc.build references {} with
  | .ok _ g => .ok g
  | .error e _ => .error e

end Document

/-- The graph of a text. -/
def loadGraph (text : String) : Except Error Source.Graph :=
  match Document.read? text with
  | some doc => doc.graph
  | none => .error (.invalid .malformedDocument)

end GraphLowering
