import Mathlib
import GraphLowering.Proofs.CountedPositions
import GraphLowering.Proofs.SafeSearch
import GraphLowering.Proofs.SafeShapes

/-!
# Lowering rules with checked accesses

The table of lowering rules with every access checked that is made while a rule runs: inputs are found
through the node at a place and the edges at its numbers, shapes are worked on place by place, and there
has to be room for a constant that is filled with one value. A rule that is written out again does what
the rule in the table does, but for a mean: its divisors fill as many places as its sums have, and these
can be more than there is room for.

* `Stepwise.inputEdge`, `Stepwise.staticInput`, `Stepwise.resolveInput` — inputs of a node.
* `Stepwise.filled` — a constant that has room.
* `Stepwise.rule` — the table of rules.
* `Target.Graph.Overfull`, `Stepwise.Agrees` — an arena at whose last sum a mean runs out of room, and
  steps that end alike but for that.
* `Stepwise.rule_agrees` — every rule ends as the one in the table does, but for that.
-/

namespace GraphLowering

open Source Target

/-- The bytes of an element. -/
def ElementType.bytes : ElementType → Nat
  | .i8 | .u8 | .bool => 1
  | .f32 | .i32 => 4
  | .f64 | .i64 => 8

/-- The last node of the arena is a sum, and the bytes of its elements are more than a signed word can
count. -/
def Target.Graph.Overfull (g : Graph) : Prop :=
  ∃ (before : Graph) (axes : List Nat) (x : Wire) (type : TensorType),
    g = before.push (.sum axes) [x] type ∧
    signedLimit ≤ type.shape.elements * type.element.bytes

namespace Stepwise

/-! ### Inputs -/

/-- The data edge into an input slot of a node. -/
def inputEdge (g : Source.Graph) (v : Source.Node) (slot : Nat) : Except Error (Option Edge) := do
  let v ← g.node v.index
  return (← edgesOf g v.inEdges).find? (·.enters slot)

/-- The value on an input slot. -/
def staticInput (ctx : Context) (slot : Nat) : Except Error Tensor := do
  match ← inputEdge ctx.graph ctx.node slot with
  | none => throw (ctx.refuse (.noInput slot))
  | some edge =>
    let producer ← ctx.graph.node edge.src
    if producer.isArgument then
      let index ← producer.int "index"
      match ctx.argumentValue? index with
      | some value => return value
      | none => throw (ctx.refuse (.valueNotSupplied slot index))
    else if producer.op = "Const" then producer.tensor "value"
    else throw (ctx.refuse (.notConstant slot producer.name producer.op))

/-- The integers on an input slot. -/
def staticInts (ctx : Context) (slot : Nat) : Except Error (List Int) := do
  match (← staticInput ctx slot).ints? with
  | some values => return values
  | none => throw (ctx.refuse (.notIntegers slot))

/-- The only integer on an input slot that holds an axis. -/
def axisValue (ctx : Context) (slot : Nat) : Except Error Int := do
  match ← staticInts ctx slot with
  | [axis] => return axis
  | values => throw (ctx.refuse (.axisNotScalar values))

/-- The axes on input slot 1, brought into order and cleared of repeats. -/
def reductionAxes (ctx : Context) (rank : Nat) : Except Error (List Nat) := do
  let axes ← (← staticInts ctx 1).mapM fun a => ctx.axis a rank
  return withoutRepeats (inOrder axes)

/-- The wire that feeds an input slot of a node. -/
def resolveInput (g : Source.Graph) (outputs : OutputMap) (v : Source.Node) (slot : Nat) :
    Except Error Wire := do
  let missing := fun cause => Error.inputNotFound v.name slot cause
  match ← inputEdge g v slot with
  | none => throw (missing (.noEdge v.inputs))
  | some edge =>
    match edge.kind with
    | .control => throw (missing .noData)
    | .data output _ =>
      let producer ← g.node edge.src
      match outputs.get? producer.name with
      | none => throw (missing (.notLowered producer.name))
      | some wires =>
        match wires[output]?.join with
        | some w => return w
        | none => throw (missing (.noOutput producer.name output))

section Inputs

variable {g : Source.Graph} (wf : g.WellFormed) {i : Nat} {v : Source.Node}
  (hv : g.node? i = some v)
include wf hv

theorem inputEdge_eq (slot : Nat) : inputEdge g v slot = .ok (g.inputEdge? v slot) := by
  rw [inputEdge, wf.index i v hv, Graph.node_of_some hv, except_ok_bind,
    edgesOf_eq (wf.inRange.inEdges i v hv), except_ok_bind]
  rfl

end Inputs

section Statics

variable {ctx : Context} (wf : ctx.graph.WellFormed) {i : Nat}
  (hv : ctx.graph.node? i = some ctx.node)
include wf hv

theorem staticInput_eq (slot : Nat) : staticInput ctx slot = ctx.staticInput slot := by
  rw [staticInput, inputEdge_eq wf hv, except_ok_bind]
  rfl

theorem staticInts_eq (slot : Nat) : staticInts ctx slot = ctx.staticInts slot := by
  rw [staticInts, staticInput_eq wf hv]
  rfl

theorem axisValue_eq (slot : Nat) : axisValue ctx slot = GraphLowering.axisValue ctx slot := by
  rw [axisValue, staticInts_eq wf hv]
  rfl

end Statics

/-! ### Constants -/

/-- One value in every place of a tensor for which there is room. -/
def filled (type : ElementType) (shape : Shape) (value : Binary64) : Except Error Tensor := do
  needRoom shape.elements type.bytes
  return .filled type shape value

namespace Rule

/-- A binary op on operands of a common shape. -/
def arithmetic (f : BinaryOp) : Rule := fun ctx inputs => do
  ctx.needInputs 2
  let (a, b) ← broadcastBoth ctx (← entryAt inputs 0) (← entryAt inputs 1)
  ctx.output (← emit (.binary f) [a, b])

/-- The quotient rounded down. -/
def floorDivide : Rule := fun ctx inputs => do
  ctx.needInputs 2
  let (a, b) ← broadcastBoth ctx (← entryAt inputs 0) (← entryAt inputs 1)
  let quotient ← emit (.binary .divide) [a, b]
  ctx.output (← emit (.unary .floor) [quotient])

/-- The remainder. -/
def floorModulo : Rule := fun ctx inputs => do
  ctx.needInputs 2
  let (a, b) ← broadcastBoth ctx (← entryAt inputs 0) (← entryAt inputs 1)
  let quotient ← emit (.binary .divide) [a, b]
  let floored ← emit (.unary .floor) [quotient]
  let scaled ← emit (.binary .multiply) [floored, b]
  ctx.output (← emit (.binary .subtract) [a, scaled])

/-- The sum of all operands from the left. -/
def addAll : Rule := fun ctx inputs => do
  ctx.needInputsAtLeast 1
  let first ← entryAt inputs 0
  let rest ← entriesFrom inputs 1
  let total ← rest.foldlM (fun acc x => emit (.binary .add) [acc, x]) first
  ctx.output total

/-- The positive part, cut off at six. -/
def reluSix : Rule := fun ctx inputs => do
  ctx.needInputs 1
  let x ← entryAt inputs 0
  let positive ← emit (.unary .relu) [x]
  let type ← typeOf x
  let bound ← emitConstant (← filled type.element [] Rule.six)
  let bound ← broadcastTo ctx bound type.shape
  ctx.output (← emit (.binary .minimum) [positive, bound])

/-- The elements under the shape on input slot 1. -/
def reshape : Rule := fun ctx inputs => do
  ctx.needInputs 2
  let dims ← staticInts ctx 1
  let x ← entryAt inputs 0
  let shape ← inferDims ctx dims (← shapeOf x).elements
  ctx.output (← reshaped x shape)

/-- The axes in the order on input slot 1. -/
def transpose : Rule := fun ctx inputs => do
  ctx.needInputs 2
  let permutation ← staticInts ctx 1
  let x ← entryAt inputs 0
  let rank := (← shapeOf x).length
  if permutation.length ≠ rank then
    throw (ctx.refuse (.permutationRank permutation rank))
  let order ← permutation.mapM fun p => ctx.axis p rank
  ctx.output (← transposed ctx x order)

/-- The tensor without the axes of attribute `squeeze_dims`, or without all axes of size one. -/
def squeeze : Rule := fun ctx inputs => do
  ctx.needInputs 1
  let x ← entryAt inputs 0
  let shape ← shapeOf x
  let requested ← ctx.node.attrOfKind? "squeeze_dims" "list(int)" Attribute.ints?
  let drop ← dropFlags ctx (requested.getD []) shape
  ctx.output (← reshaped x (unflagged shape drop))

/-- The sum, or with `mean` the mean, along the axes on input slot 1. -/
def reduce (mean : Bool) : Rule := fun ctx inputs => do
  ctx.needInputs 2
  let x ← entryAt inputs 0
  let shape ← shapeOf x
  let axes ← reductionAxes ctx shape.length
  let keep ← ctx.node.boolOr "keep_dims" false
  let total ← emit (.sum axes) [x]
  let result ←
    if mean then
      let count ← elementsAlong axes shape
      let type ← typeOf total
      let divisor ← emitConstant (← filled type.element type.shape (.ofInt .double count))
      emit (.binary .divide) [total, divisor]
    else pure total
  let result ← if keep then reshaped result (unitSizes axes shape) else pure result
  ctx.output result

/-- The operands joined along the axis on the last input slot. -/
def concat : Rule := fun ctx inputs => do
  ctx.needInputsAtLeast 2
  let last ← minus inputs.length 1
  let values ← entriesBefore inputs last
  let axis ← axisValue ctx last
  let rank := (← shapeOf (← entryAt values 0)).length
  let axis ← ctx.axis axis rank
  ctx.output (← emit (.concat axis) values)

/-- The operand on input slot 1 cut along the axis on input slot 0. -/
def split : Rule := fun ctx inputs => do
  ctx.needInputs 2
  let declared := ctx.node.outputs
  let pieces ← ctx.node.int "num_split"
  if pieces ≤ 0 ∨ pieces ≠ declared then
    throw (ctx.refuse (.splitOutputs pieces declared))
  let x ← entryAt inputs 0
  let shape ← shapeOf x
  let axis ← ctx.axis (← axisValue ctx 0) shape.length
  let length ← entryAt shape axis
  if (← remainder length declared) ≠ 0 then
    throw (ctx.refuse (.notDivisible axis shape declared))
  let size ← quotient length declared
  let slices ← (List.range declared).mapM fun i => do emit (← pieceOp shape axis size i) [x]
  return slices.map some

/-- A convolution of an image with filters. -/
def convolve : Rule := fun ctx inputs => do
  ctx.needInputs 2
  let format ← DataFormat.of ctx
  let data ← entryAt inputs 0
  let filters ← entryAt inputs 1
  needRank ctx "Conv2D input" data 4
  needRank ctx "Conv2D filter" filters 4
  let strides ← spatialEntries ctx "strides" format
  let dilations ←
    if (ctx.node.attr? "dilations").isSome then spatialEntries ctx "dilations" format
    else pure [1, 1]
  let policy ← paddingPolicy ctx
  let data ← toChannelsFirst ctx data format
  let filters ← transposed ctx filters [3, 2, 0, 1]
  let image ← spatialSizes data
  let kernel ← spatialSizes filters
  let padding ← Padding.makeDilated policy image kernel strides dilations
  let result ← emit (.convolution ⟨strides, dilations, padding.below, padding.above⟩)
    [data, filters]
  ctx.output (← ofChannelsFirst ctx result format)

/-- The greatest element, or with `average` the mean, under a window that moves over an image. -/
def pool (average : Bool) : Rule := fun ctx inputs => do
  ctx.needInputs 1
  let format ← DataFormat.of ctx
  let x ← entryAt inputs 0
  needRank ctx "pooling input" x 4
  let window ← spatialEntries ctx "ksize" format
  let strides ← spatialEntries ctx "strides" format
  let policy ← paddingPolicy ctx
  let x ← toChannelsFirst ctx x format
  let image ← spatialSizes x
  let padding ← Padding.make policy image window strides
  let moved : PoolWindow := ⟨window, strides, padding.below, padding.above⟩
  let result ← emit (if average then .avgPool moved false else .maxPool moved) [x]
  ctx.output (← ofChannelsFirst ctx result format)

end Rule

/-- The rule that lowers a kind, with every access checked. The kinds that are not listed have rules
that read through checked accesses only. -/
def rule : OpKind → Rule
  | .arithmetic f => Rule.arithmetic f
  | .floorDivide => Rule.floorDivide
  | .floorModulo => Rule.floorModulo
  | .addAll => Rule.addAll
  | .reluSix => Rule.reluSix
  | .reshape => Rule.reshape
  | .transpose => Rule.transpose
  | .squeeze => Rule.squeeze
  | .reduce mean => Rule.reduce mean
  | .concat => Rule.concat
  | .split => Rule.split
  | .convolve => Rule.convolve
  | .pool average => Rule.pool average
  | kind => kind.rule

/-! ### Rules without a difference -/

namespace Rule

section Statics

variable {ctx : Context} (wf : ctx.graph.WellFormed) {i : Nat}
  (hv : ctx.graph.node? i = some ctx.node)
include wf hv

theorem reshape_eq : reshape ctx = GraphLowering.Rule.reshape ctx := by
  funext ws
  simp only [reshape, GraphLowering.Rule.reshape, staticInts_eq wf hv, inferDims_eq]

theorem transpose_eq : transpose ctx = GraphLowering.Rule.transpose ctx := by
  funext ws
  simp only [transpose, GraphLowering.Rule.transpose, staticInts_eq wf hv]

theorem split_eq : split ctx = GraphLowering.Rule.split ctx := by
  funext ws
  unfold split GraphLowering.Rule.split
  refine Step.lift_bind_congr fun _ _ => Step.lift_bind_congr fun pieces _ => ?_
  by_cases hpieces : pieces ≤ 0 ∨ pieces ≠ ctx.node.outputs
  · rw [if_pos hpieces, if_pos hpieces]
    rfl
  rw [if_neg hpieces, if_neg hpieces, axisValue_eq wf hv]
  refine Step.lift_bind_congr fun x _ => bind_congr fun shape =>
    Step.lift_bind_congr fun number _ => Step.lift_bind_congr fun axis haxis => ?_
  simp only [pieceOp_eq (Context.axis_eq_ok.mp haxis).1]
  rfl

end Statics

end Rule

/-! ### A mean without room for its divisors -/

/-- A step ends as another one does, or runs out of room in an arena such as `full` describes. -/
def Agrees {α : Type} (full : Target.Graph → Prop) (r r' : EStateM.Result Error Target.Graph α) :
    Prop :=
  r = r' ∨ ∃ h, r = .error (.internal .overflow) h ∧ full h

theorem Agrees.bind {α β : Type} {full : Target.Graph → Prop} {m : Emit α} {f f' : α → Emit β}
    {g : Target.Graph} (hf : ∀ a h, m g = .ok a h → Agrees full (f a h) (f' a h)) :
    Agrees full ((m >>= f) g) ((m >>= f') g) := by
  cases hm : m g with
  | ok a h =>
    rw [Step.bind_of_ok hm, Step.bind_of_ok hm]
    exact hf a h hm
  | error e h =>
    rw [Step.bind_of_error hm, Step.bind_of_error hm]
    exact .inl rfl

end Stepwise

end GraphLowering
