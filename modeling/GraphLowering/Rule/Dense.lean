import GraphLowering.Rule.Layout

/-!
# Dense layers

* `DataFormat` — where a tensor keeps its channels.
* `Rule.matMul`, `Rule.biasAdd`, `Rule.softmax` — the rules.
-/

namespace GraphLowering

open Target

/-- Where image data keeps its channels: behind the spatial axes, or before them. -/
inductive DataFormat where
  | channelsLast
  | channelsFirst
  deriving DecidableEq

namespace DataFormat

/-- The format of attribute `data_format`, by default with the channels last. -/
def of (ctx : Context) : Except Error DataFormat := do
  match ← ctx.node.textOr "data_format" "NHWC" with
  | "NHWC" => return channelsLast
  | "NCHW" => return channelsFirst
  | other => throw (ctx.refuse (.dataFormat other))

/-- The places of the two spatial axes among four. -/
def spatialAxes : DataFormat → List Nat
  | channelsLast => [1, 2]
  | channelsFirst => [2, 3]

/-- The place of the channels among `rank` axes. -/
def channelAxis : DataFormat → (rank : Nat) → Except Error Nat
  | channelsLast, rank => minus rank 1
  | channelsFirst, _ => return 1

end DataFormat

/-- A wire must carry a tensor of the given rank. -/
def needRank (ctx : Context) (what : String) (x : Wire) (rank : Nat) : Emit Unit := do
  let shape ← shapeOf x
  if shape.length ≠ rank then
    throw (ctx.refuse (.wrongRank what rank shape))

namespace Rule

/-- The product of two matrices, each transposed first where attribute `transpose_a` or
`transpose_b` says so. -/
def matMul : Rule := fun ctx inputs => do
  ctx.needInputs 2
  let a ← entryAt inputs 0
  let b ← entryAt inputs 1
  needRank ctx "MatMul operand" a 2
  needRank ctx "MatMul operand" b 2
  let a ← if ← ctx.node.boolOr "transpose_a" false then transposed ctx a [1, 0] else pure a
  let b ← if ← ctx.node.boolOr "transpose_b" false then transposed ctx b [1, 0] else pure b
  ctx.output (← emit .dot [a, b])

/-- A vector added along the channels of a tensor. -/
def biasAdd : Rule := fun ctx inputs => do
  ctx.needInputs 2
  let format ← DataFormat.of ctx
  let value ← entryAt inputs 0
  let bias ← entryAt inputs 1
  let shape ← shapeOf value
  if shape.length < 2 then
    throw (ctx.refuse (.valueRank shape))
  needRank ctx "bias" bias 1
  let channel ← format.channelAxis shape.length
  let channels ← entryAt (← shapeOf bias) 0
  if channels ≠ (← entryAt shape channel) then
    throw (ctx.refuse (.biasSize channels channel shape))
  let axes := (List.range shape.length).filter (· ≠ channel)
  let stretched ← emit (.broadcast shape axes) [bias]
  ctx.output (← emit (.binary .add) [value, stretched])

/-- Softmax along the last axis. -/
def softmax : Rule := fun ctx inputs => do
  ctx.needInputs 1
  let x ← entryAt inputs 0
  let rank := (← shapeOf x).length
  if rank = 0 then
    throw (ctx.refuse .logitsRank)
  let last ← minus rank 1
  ctx.output (← emit (.softmax [last]) [x])

end Rule

end GraphLowering
