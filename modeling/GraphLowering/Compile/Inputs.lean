import GraphLowering.Rule.Context

/-!
# Inputs of a node

While a graph is lowered, the wires of the outputs of each lowered node are kept under its name. An
input slot of a later node leads through its data edge to an output slot of its producer, and so to
a wire.
-/

namespace GraphLowering

open Source Target

/-- The outputs of the nodes lowered so far, by name. -/
abbrev OutputMap := NameTable Outputs

/-- The wire that feeds an input slot of a node. -/
def resolveInput (g : Source.Graph) (outputs : OutputMap) (v : Source.Node) (slot : Nat) :
    Except Error Wire := do
  let missing := fun cause => Error.inputNotFound v.name slot cause
  match g.inputEdge? v slot with
  | none => throw (missing (.noEdge v.inputs))
  | some edge =>
    match edge.kind with
    | .control => throw (missing .noData)
    | .data output _ =>
      let producer ← g.node edge.src
      match outputs.get? producer.name with
      | none => throw (missing (.notLowered producer.name))
      | some wires =>
        match wires[output]?.join with
        | some w => return w
        | none => throw (missing (.noOutput producer.name output))

end GraphLowering
