import GraphLowering.Source.Graph
import GraphLowering.Target.Graph

/-!
# Lowering rules and their context

What a lowering rule knows of the node it lowers: the node with its attributes, the graph around it,
and the values of the arguments that are known while lowering.

* `Context` — the node, its graph, and the known values.
* `Outputs` — the wires of a node's output slots, filled as far as the rule fills them.
* `Context.staticInput` — the value on an input slot, where it is known.
* `Context.axis` — an axis counted from either end.
* `Rule` — a lowering rule: the wires of the operands to the wires of the outputs.
-/

namespace GraphLowering

open Target (Wire Emit)

/-- The wires of a node's output slots. -/
abbrev Outputs := List (Option Wire)

/-- The bytes of an output slot: a word that says whether it is filled, and a word for the wire. -/
def slotBytes : Nat := 16

/-- What a lowering rule knows of its node. The entry of `statics` at an argument's position is the
argument's value, where it is known. -/
structure Context where
  node : Source.Node
  graph : Source.Graph
  statics : List (Option Tensor) := []

namespace Context

/-- A refusal of the node. -/
def refuse (ctx : Context) (cause : RuleFault) : Error := .rule ctx.node.name ctx.node.op cause

/-- The empty output slots of the node. -/
def noOutputs (ctx : Context) : Outputs := List.replicate ctx.node.outputs none

/-- Fills an output slot of the node. -/
def setOutput (ctx : Context) (outputs : Outputs) (slot : Nat) (w : Wire) : Except Error Outputs :=
  if slot < outputs.length then .ok (outputs.set slot (some w))
  else .error (ctx.refuse (.noOutput slot outputs.length))

/-- The outputs of a node that fills its first slot only. -/
def output (ctx : Context) (w : Wire) : Except Error Outputs := ctx.setOutput ctx.noOutputs 0 w

/-- The node must have exactly `count` data inputs. -/
def needInputs (ctx : Context) (count : Nat) : Except Error Unit :=
  if ctx.node.inputs = count then .ok ()
  else .error (.invalid (.inputCount ctx.node.name count ctx.node.inputs))

/-- The node must have `least` data inputs or more. -/
def needInputsAtLeast (ctx : Context) (least : Nat) : Except Error Unit :=
  if least ≤ ctx.node.inputs then .ok ()
  else .error (.invalid (.inputCountAtLeast ctx.node.name least ctx.node.inputs))

/-- The known value of the argument at a position. -/
def argumentValue? (ctx : Context) (index : Int) : Option Tensor :=
  if 0 ≤ index then ctx.statics[index.toNat]?.join else none

/-- The value on an input slot. It is known if the slot is fed by a constant, or by an argument
whose value is known. -/
def staticInput (ctx : Context) (slot : Nat) : Except Error Tensor :=
  match ctx.graph.inputEdge? ctx.node slot with
  | none => .error (ctx.refuse (.noInput slot))
  | some edge => do
    let producer ← ctx.graph.node edge.src
    if producer.isArgument then
      let index ← producer.int "index"
      match ctx.argumentValue? index with
      | some value => return value
      | none => throw (ctx.refuse (.valueNotSupplied slot index))
    else if producer.op = "Const" then producer.tensor "value"
    else throw (ctx.refuse (.notConstant slot producer.name producer.op))

/-- The integers on an input slot. -/
def staticInts (ctx : Context) (slot : Nat) : Except Error (List Int) := do
  match (← ctx.staticInput slot).ints? with
  | some values => return values
  | none => throw (ctx.refuse (.notIntegers slot))

/-- An axis below `rank`; a negative one counts from the end. -/
def axis (ctx : Context) (axis : Int) (rank : Nat) : Except Error Nat :=
  let place := if axis < 0 then axis + rank else axis
  if 0 ≤ place ∧ place < rank then .ok place.toNat
  else .error (ctx.refuse (.axisRange axis rank))

end Context

/-- A lowering rule: appends the nodes that compute a source node from the wires of its operands,
and gives the wires of its outputs. -/
abbrev Rule := Context → List Wire → Emit Outputs

end GraphLowering
