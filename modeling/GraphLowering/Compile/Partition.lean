import GraphLowering.Source.Order

/-!
# The parts of a graph

An ordered graph falls into the nodes that stand for arguments, those that stand for results, and
the ops between them. Sentinels belong to no part, and a graph that branches or loops has no parts.
-/

namespace GraphLowering

/-- The nodes of a graph by their role, each part in the order of the graph. -/
structure Partition where
  params : List Nat := []
  returns : List Nat := []
  ops : List Nat := []
  deriving DecidableEq

namespace Partition

/-- Puts a node before the others of its part. -/
def insert (parts : Partition) (v : Source.Node) (i : Nat) : Partition :=
  if v.isArgument then { parts with params := i :: parts.params }
  else if v.isReturn then { parts with returns := i :: parts.returns }
  else { parts with ops := i :: parts.ops }

/-- The parts of the listed nodes. -/
def of (g : Source.Graph) : List Nat → Except Error Partition
  | [] => .ok {}
  | i :: rest => do
    let v ← g.node i
    if v.isSentinel then of g rest
    else if v.isControlFlow then throw (.controlFlow v.name v.op)
    else return (← of g rest).insert v i

end Partition

end GraphLowering
