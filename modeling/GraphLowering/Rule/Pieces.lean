import GraphLowering.Rule.Layout

/-!
# Joining and cutting tensors

* `Rule.concat` — operands joined along an axis.
* `Rule.split` — one operand cut into equal pieces along an axis.
-/

namespace GraphLowering

open Target

/-- The only integer on an input slot that holds an axis. -/
def axisValue (ctx : Context) (slot : Nat) : Except Error Int := do
  match ← ctx.staticInts slot with
  | [axis] => return axis
  | values => throw (ctx.refuse (.axisNotScalar values))

/-- The bounds of piece `i` of a tensor cut into pieces of `size` along `axis`. -/
def pieceOp (shape : Shape) (axis size i : Nat) : Op :=
  .slice ((List.replicate shape.length 0).set axis (i * size)) (shape.set axis ((i + 1) * size))
    (List.replicate shape.length 1)

namespace Rule

/-- The operands joined along the axis on the last input slot. -/
def concat : Rule := fun ctx inputs => do
  ctx.needInputsAtLeast 2
  let last ← minus inputs.length 1
  let values := inputs.dropLast
  let axis ← axisValue ctx last
  let rank := (← shapeOf (← entryAt values 0)).length
  let axis ← ctx.axis axis rank
  ctx.output (← emit (.concat axis) values)

/-- The operand on input slot 1 cut along the axis on input slot 0 into as many pieces as the node
has outputs, a number that attribute `num_split` repeats. -/
def split : Rule := fun ctx inputs => do
  ctx.needInputs 2
  let declared := ctx.node.outputs
  let pieces ← ctx.node.int "num_split"
  if pieces ≤ 0 ∨ pieces ≠ declared then
    throw (ctx.refuse (.splitOutputs pieces declared))
  let x ← entryAt inputs 0
  let shape ← shapeOf x
  let axis ← ctx.axis (← axisValue ctx 0) shape.length
  let length ← entryAt shape axis
  if (← remainder length declared) ≠ 0 then
    throw (ctx.refuse (.notDivisible axis shape declared))
  let size ← quotient length declared
  let slices ← (List.range declared).mapM fun i => emit (pieceOp shape axis size i) [x]
  return slices.map some

end Rule

end GraphLowering
