import GraphLowering.Broadcast

/-!
# Elementwise rules

Lowering of the ops that work element by element. The binary ones broadcast their operands to a
common shape first; `addAll` takes its operands as they are.

* `arithmetic`, `floorDivide`, `floorModulo`, `addAll` — rules on several operands.
* `apply`, `reluSix`, `square`, `cast` — rules on one operand.
-/

namespace GraphLowering

open Target

namespace Rule

/-- A binary op on operands of a common shape. -/
def arithmetic (f : BinaryOp) : Rule := fun ctx inputs => do
  ctx.needInputs 2
  let (a, b) ← broadcastBoth ctx (← entryAt inputs 0) (← entryAt inputs 1)
  ctx.output (← emit (.binary f) [a, b])

/-- The quotient rounded down. -/
def floorDivide : Rule := fun ctx inputs => do
  ctx.needInputs 2
  let (a, b) ← broadcastBoth ctx (← entryAt inputs 0) (← entryAt inputs 1)
  let quotient ← emit (.binary .divide) [a, b]
  ctx.output (← emit (.unary .floor) [quotient])

/-- The remainder `a - ⌊a / b⌋ * b`, which has the sign of `b`. -/
def floorModulo : Rule := fun ctx inputs => do
  ctx.needInputs 2
  let (a, b) ← broadcastBoth ctx (← entryAt inputs 0) (← entryAt inputs 1)
  let quotient ← emit (.binary .divide) [a, b]
  let floored ← emit (.unary .floor) [quotient]
  let scaled ← emit (.binary .multiply) [floored, b]
  ctx.output (← emit (.binary .subtract) [a, scaled])

/-- The sum of all operands from the left. -/
def addAll : Rule := fun ctx inputs => do
  ctx.needInputsAtLeast 1
  let first ← entryAt inputs 0
  let total ← (inputs.drop 1).foldlM (fun acc x => emit (.binary .add) [acc, x]) first
  ctx.output total

/-- A unary op. -/
def apply (f : UnaryOp) : Rule := fun ctx inputs => do
  ctx.needInputs 1
  ctx.output (← emit (.unary f) [← entryAt inputs 0])

/-- The number six. -/
def six : Binary64 := .ofInt .double 6

/-- The positive part, cut off at six. -/
def reluSix : Rule := fun ctx inputs => do
  ctx.needInputs 1
  let x ← entryAt inputs 0
  let positive ← emit (.unary .relu) [x]
  let type ← typeOf x
  let bound ← emitConstant (.filled type.element [] six)
  let bound ← broadcastTo ctx bound type.shape
  ctx.output (← emit (.binary .minimum) [positive, bound])

/-- The product of a tensor with itself. -/
def square : Rule := fun ctx inputs => do
  ctx.needInputs 1
  let x ← entryAt inputs 0
  ctx.output (← emit (.binary .multiply) [x, x])

/-- Conversion to the type of attribute `DstT`. -/
def cast : Rule := fun ctx inputs => do
  ctx.needInputs 1
  let type ← ctx.node.type "DstT"
  let element ← type.element
  ctx.output (← emit (.convert element) [← entryAt inputs 0])

end Rule

end GraphLowering
