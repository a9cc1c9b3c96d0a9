import GraphLowering.Shape
import GraphLowering.Source.DataType

/-!
# Failures

Every way in which reading, preparing or lowering a graph can fail, as a cause with its particulars.
The wording is in the `message` functions and nowhere else.

* `Invalid` — a malformed document, node, index or argument.
* `InputFault` — why an input slot of a node yields no wire.
* `Mismatch` — why a target node cannot be built on its operands.
* `RuleFault` — why the lowering rule of one op refuses a node.
* `Fault` — a broken promise between the parts of this library. No run ends in one, except where a
  size is too large: for the padding of a window op, or for the bytes of a list.
* `Error` — the failures, with `Error.message`.
-/

namespace GraphLowering

/-- Malformed documents, nodes, indices and arguments. -/
inductive Invalid where
  | tensorSize (shape : Shape) (got : Nat)
  | unsupportedType (type : DataType)
  | unknownDimension (dims : List Int)
  | attributeKind (node key got expected : String)
  | duplicateNode (name : String)
  | noOutput (node : String) (declared output : Nat)
  | inputConnected (node : String) (slot : Nat)
  | noNode (index : Nat)
  | cycle (node : String)
  | malformedDocument
  | malformedReference (text : String)
  | unknownType (name : String)
  | literalValue (value : String) (type : DataType)
  | stringTensor
  | unknownProducer (name consumer : String)
  | nodeLost (name : String)
  | windowRank (rank kernel strides : Nat)
  | zeroStride (strides : List Nat)
  | dilationCount (expected got : Nat)
  | negativeIndex (node : String) (index : Int)
  | argumentIndex (node : String) (index arguments : Nat)
  | argumentNotSupplied (node : String) (index supplied : Nat)
  | indexRange (node : String) (index bound : Nat)
  | indexReused (node : String) (index : Nat)
  | returnInputs (node : String) (got : Nat)
  | inputCount (node : String) (expected got : Nat)
  | inputCountAtLeast (node : String) (least got : Nat)
  deriving DecidableEq

/-- Why an input slot of a node yields no wire. -/
inductive InputFault where
  | noEdge (inputs : Nat)
  | noData
  | notLowered (producer : String)
  | noOutput (producer : String) (output : Nat)
  deriving DecidableEq

/-- Why a target node cannot be built on its operands. -/
inductive Mismatch where
  | noNode (op : String) (id : Nat)
  | operandCount (op : String) (expected got : Nat)
  | leafOp (op : String)
  | operandsDiffer (op : String) (a : ElementType) (s : Shape) (b : ElementType) (t : Shape)
  | dotElements (a b : ElementType)
  | dotRank
  | dotAxes (s t : Shape)
  | broadcast (source target : Shape) (axes : List Nat)
  | notPermutation (order : List Nat) (rank : Nat)
  | reshape (source target : Shape)
  | sliceRank (rank : Nat)
  | sliceRange (lower upper stride axis : Nat) (shape : Shape)
  | concatEmpty
  | concatAxis (axis rank : Nat)
  | concatOperand (a : ElementType) (s : Shape) (b : ElementType) (t : Shape) (axis : Nat)
  | axisList (op : String) (axes : List Nat) (rank : Nat)
  | windowData (op : String) (shape : Shape)
  | convolutionFilters (filters data : Shape)
  | convolutionElements
  | windowEntries (op : String) (entries : Nat)
  | windowFit (op : String) (window stride padded : Nat)
  deriving DecidableEq

/-- Why the lowering rule of one op refuses a node. -/
inductive RuleFault where
  | noOutput (slot declared : Nat)
  | noInput (slot : Nat)
  | valueNotSupplied (slot : Nat) (argument : Int)
  | notConstant (slot : Nat) (producer op : String)
  | notIntegers (slot : Nat)
  | axisRange (axis : Int) (rank : Nat)
  | broadcastRank (source target : Shape)
  | broadcast (source target : Shape)
  | incompatible (a b : Shape)
  | orderRange (order : List Nat) (rank : Nat)
  | constantType (declared : DataType) (value : ElementType)
  | twoUnknowns (dims : List Int)
  | badDimension (dim : Int) (dims : List Int)
  | cannotInfer (dims : List Int) (elements : Nat)
  | cannotReshape (elements : Nat) (shape : Shape)
  | permutationRank (order : List Int) (rank : Nat)
  | cannotSqueeze (axis : Nat) (shape : Shape)
  | axisNotScalar (values : List Int)
  | splitOutputs (pieces : Int) (declared : Nat)
  | notDivisible (axis : Nat) (shape : Shape) (pieces : Nat)
  | dataFormat (name : String)
  | entryCount (key : String) (values : List Int)
  | entryNotPositive (key : String) (values : List Int)
  | padding (name : String)
  | wrongRank (what : String) (rank : Nat) (shape : Shape)
  | valueRank (shape : Shape)
  | biasSize (channels axis : Nat) (shape : Shape)
  | logitsRank
  deriving DecidableEq

/-- A broken promise between the parts of this library: a position outside a list, a difference
below zero, a division by zero, a wire outside the target graph, a node or an edge outside the source
graph, a word that does not hold its result, or a search that runs longer than its bound. -/
inductive Fault where
  | position (index length : Nat)
  | belowZero (minuend subtrahend : Nat)
  | zeroDivisor (dividend : Nat)
  | wire (id : Nat)
  | sourceNode (index : Nat)
  | sourceEdge (index : Nat)
  | overflow
  | searchBound
  deriving DecidableEq

/-- The failures of reading, preparing and lowering a graph. -/
inductive Error where
  | controlFlow (node op : String)
  | unsupportedOp (node op : String)
  | missingAttribute (node key : String)
  | invalid (cause : Invalid)
  | inputNotFound (node : String) (slot : Nat) (cause : InputFault)
  | mismatch (cause : Mismatch)
  | rule (node op : String) (cause : RuleFault)
  | internal (fault : Fault)
  deriving DecidableEq

/-- A name between double quotes. -/
def quoted (name : String) : String := "\"" ++ name ++ "\""

/-- The sizes of a shape between square brackets. -/
def bracketed (shape : Shape) : String := "[" ++ shape.text ++ "]"

/-- An element type with a shape: `f32[2,3]`. -/
def typeText (element : ElementType) (shape : Shape) : String := element.name ++ bracketed shape

open Text

/-- The wording of a malformed document, node, index or argument. -/
def Invalid.message : Invalid → String
  | .tensorSize shape got =>
    s!"tensor of shape {bracketList shape} needs {shape.elements} elements, got {got}"
  | .unsupportedType type => s!"unsupported data type: {type.name}"
  | .unknownDimension dims => s!"shape {bracketList dims} has an unknown dimension"
  | .attributeKind node key got expected =>
    s!"attribute {quoted key} of {quoted node} is {got}, expected {expected}"
  | .duplicateNode name => s!"duplicate node name {quoted name}"
  | .noOutput node declared output =>
    s!"{quoted node} declares {declared} output(s), no output {output}"
  | .inputConnected node slot => s!"input {slot} of {quoted node} is already connected"
  | .noNode index => s!"no node with index {index}"
  | .cycle node => s!"graph has a cycle through {quoted node}"
  | .malformedDocument => "malformed graph"
  | .malformedReference text => s!"malformed input {quoted text}"
  | .unknownType name => s!"unknown data type {quoted name}"
  | .literalValue value type => s!"tensor value {value} is not a {type.name}"
  | .stringTensor => "string tensors are not supported"
  | .unknownProducer name consumer =>
    s!"input {quoted name} of {quoted consumer} does not exist"
  | .nodeLost name => s!"node {quoted name} vanished"
  | .windowRank rank kernel strides =>
    s!"padding needs {rank} kernel dims and strides, got {kernel} and {strides}"
  | .zeroStride strides => s!"strides must be positive, got {bracketList strides}"
  | .dilationCount expected got => s!"expected {expected} dilations, got {got}"
  | .negativeIndex node index => s!"{quoted node} has negative index {index}"
  | .argumentIndex node index arguments =>
    s!"{quoted node} has index {index} but the graph has {arguments} argument(s)"
  | .argumentNotSupplied node index supplied =>
    s!"no input supplied for argument {index} ({quoted node}), got {supplied} input(s)"
  | .indexRange node index bound =>
    s!"{quoted node} has index {index}, expected one below {bound}"
  | .indexReused node index => s!"{quoted node} reuses index {index}"
  | .returnInputs node got => s!"_Retval {quoted node} has {got} inputs, should have 1"
  | .inputCount node expected got =>
    s!"{quoted node} requires {expected} input(s), got {got} instead"
  | .inputCountAtLeast node least got =>
    s!"{quoted node} requires at least {least} input(s), got {got} instead"

/-- The wording of an input slot that yields no wire. -/
def InputFault.message : InputFault → String
  | .noEdge inputs => s!"node has {inputs} data input(s)"
  | .noData => "edge carries no data"
  | .notLowered producer => s!"producer {quoted producer} has not been translated"
  | .noOutput producer output => s!"producer {quoted producer} has no output {output}"

/-- The wording of a target node that does not fit its operands. -/
def Mismatch.message : Mismatch → String
  | .noNode op id => s!"{op}: no node %{id}"
  | .operandCount op expected got => s!"{op} takes {expected} input(s), got {got}"
  | .leafOp op => s!"{op} nodes are created with add_parameter/add_constant"
  | .operandsDiffer op a s b t => s!"{op} operands differ: {typeText a s} vs {typeText b t}"
  | .dotElements a b => s!"Dot element types differ: {a.name} vs {b.name}"
  | .dotRank => "Dot operands must have rank >= 1"
  | .dotAxes s t => s!"Dot reduction axes differ: {bracketed s} . {bracketed t}"
  | .broadcast source target axes =>
    s!"cannot broadcast {bracketed source} to {bracketed target} along axes " ++
      "\x7b" ++ commaList axes ++ "\x7d"
  | .notPermutation order rank =>
    s!"Reshape input order ({commaList order}) is not a permutation of rank {rank}"
  | .reshape source target => s!"cannot reshape {bracketed source} to {bracketed target}"
  | .sliceRank rank => s!"Slice bounds must have rank {rank}"
  | .sliceRange lower upper stride axis shape =>
    s!"Slice [{lower}..{upper}:{stride}] out of range for axis {axis} of {bracketed shape}"
  | .concatEmpty => "Concat needs at least one input"
  | .concatAxis axis rank => s!"Concat axis {axis} out of range for rank {rank}"
  | .concatOperand a s b t axis =>
    s!"Concat operand {typeText a s} does not match {typeText b t} off axis {axis}"
  | .axisList op axes rank =>
    s!"{op} axes " ++ "\x7b" ++ commaList axes ++ "\x7d" ++ s!" invalid for rank {rank}"
  | .windowData op shape => s!"{op} expects [N, C, spatial..], got {bracketed shape}"
  | .convolutionFilters filters data =>
    s!"Convolution filters {bracketed filters} do not fit data {bracketed data}"
  | .convolutionElements => "Convolution element types differ"
  | .windowEntries op entries => s!"{op} window parameters must have {entries} entries"
  | .windowFit op window stride padded =>
    s!"{op} window {window} (stride {stride}) does not fit padded size {padded}"

/-- The wording of a refusal by a lowering rule. -/
def RuleFault.message : RuleFault → String
  | .noOutput slot declared => s!"output {slot} requested, node declares {declared}"
  | .noInput slot => s!"no input {slot}"
  | .valueNotSupplied slot argument =>
    s!"input {slot} needs the value of argument {argument}, which was not supplied"
  | .notConstant slot producer op =>
    s!"input {slot} must be a constant, got {quoted producer} ({op})"
  | .notIntegers slot => s!"input {slot} must hold integers"
  | .axisRange axis rank => s!"axis {axis} out of range for rank {rank}"
  | .broadcastRank source target =>
    s!"cannot broadcast {bracketed source} to lower rank {bracketed target}"
  | .broadcast source target => s!"cannot broadcast {bracketed source} to {bracketed target}"
  | .incompatible a b => s!"incompatible shapes {bracketed a} and {bracketed b}"
  | .orderRange order rank => s!"permutation {bracketList order} out of range for rank {rank}"
  | .constantType declared value =>
    s!"dtype {declared.name} does not match value of type {value.name}"
  | .twoUnknowns dims => s!"shape {bracketList dims} has more than one -1"
  | .badDimension dim dims => s!"bad dimension {dim} in {bracketList dims}"
  | .cannotInfer dims elements => s!"cannot infer {bracketList dims} from {elements} elements"
  | .cannotReshape elements shape => s!"cannot reshape {elements} elements into {bracketed shape}"
  | .permutationRank order rank =>
    s!"permutation {bracketList order} does not match rank {rank}"
  | .cannotSqueeze axis shape => s!"cannot squeeze dimension {axis} of {bracketed shape}"
  | .axisNotScalar values => s!"axis must be a scalar, got {bracketList values}"
  | .splitOutputs pieces declared =>
    s!"num_split {pieces} does not match {declared} declared outputs"
  | .notDivisible axis shape pieces =>
    s!"dimension {axis} of {bracketed shape} is not divisible by {pieces}"
  | .dataFormat name => s!"unsupported data_format {quoted name}"
  | .entryCount key values => s!"{key} must have 4 entries, got {bracketList values}"
  | .entryNotPositive key values => s!"{key} must be positive, got {bracketList values}"
  | .padding name => s!"unsupported padding {quoted name}"
  | .wrongRank what rank shape => s!"{what} must have rank {rank}, got {bracketed shape}"
  | .valueRank shape => s!"value must have rank >= 2, got {bracketed shape}"
  | .biasSize channels axis shape =>
    s!"bias of {channels} elements does not match dimension {axis} of {bracketed shape}"
  | .logitsRank => "logits must have rank >= 1"

/-- The wording of a broken promise. -/
def Fault.message : Fault → String
  | .position index length => s!"position {index} of {length}"
  | .belowZero minuend subtrahend => s!"{minuend} minus {subtrahend}"
  | .zeroDivisor dividend => s!"{dividend} divided by zero"
  | .wire id => s!"no wire %{id}"
  | .sourceNode index => s!"no source node {index}"
  | .sourceEdge index => s!"no source edge {index}"
  | .overflow => "arithmetic overflow"
  | .searchBound => "search bound exceeded"

/-- The wording of a failure. -/
def Error.message : Error → String
  | .controlFlow node op => s!"encountered a control flow op: {node} ({op})"
  | .unsupportedOp node op => s!"unsupported op: {node} ({op})"
  | .missingAttribute node key => s!"no {key} defined for {quoted node}"
  | .invalid cause => s!"invalid argument: {cause.message}"
  | .inputNotFound node slot cause =>
    s!"input {slot} of {quoted node} not found: {cause.message}"
  | .mismatch cause => s!"shape mismatch: {cause.message}"
  | .rule node op cause => s!"{quoted node} ({op}): {cause.message}"
  | .internal fault => s!"internal: {fault.message}"

/-- The host data types that lowered functions hold. -/
def DataType.element (type : DataType) : Except Error ElementType :=
  match type.element? with
  | some element => .ok element
  | none => .error (.invalid (.unsupportedType type))

/-- A declared shape as sizes; a negative entry stands for an unknown dimension and is refused. -/
def Shape.ofDims (dims : List Int) : Except Error Shape :=
  dims.mapM fun d => if 0 ≤ d then .ok d.toNat else .error (.invalid (.unknownDimension dims))

end GraphLowering
