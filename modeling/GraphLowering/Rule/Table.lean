import GraphLowering.Rule.Reduction
import GraphLowering.Rule.Pieces
import GraphLowering.Rule.Window

/-!
# The table of lowering rules

Which op types can be lowered. Each of them belongs to a kind, and the kind says by which rule it is
lowered, which input slots become operands of the rule, and on which slots the rule needs to know
the value.

* `OpKind` — the kinds, with `OpKind.ofName?` from op types and `OpKind.names` back to them.
* `OpKind.rule`, `OpKind.operandSlots`, `OpKind.staticSlots` — what a kind says.
* `needsValue` — whether an input slot of a node needs a known value.
-/

namespace GraphLowering

open Target

/-- The kinds of ops that can be lowered. -/
inductive OpKind where
  | arithmetic (f : BinaryOp)
  | floorDivide
  | floorModulo
  | addAll
  | apply (f : UnaryOp)
  | reluSix
  | square
  | cast
  | identity
  | nothing
  | constant
  | reshape
  | transpose
  | squeeze
  | reduce (mean : Bool)
  | concat
  | split
  | matMul
  | biasAdd
  | convolve
  | pool (average : Bool)
  | softmax
  deriving DecidableEq

/-- The input slots of a node that become operands of its rule. -/
inductive OperandSlots where
  | listed (slots : List Nat)
  | all
  deriving DecidableEq

/-- The input slots of a node on which its rule needs a known value. -/
inductive StaticSlots where
  | none
  | listed (slots : List Nat)
  | last
  deriving DecidableEq

/-- The slots of a node that become operands, in order. -/
def OperandSlots.of (slots : OperandSlots) (v : Source.Node) : List Nat :=
  match slots with
  | .listed slots => slots
  | .all => List.range v.inputs

/-- Whether a slot of a node needs a known value. -/
def StaticSlots.contains (slots : StaticSlots) (v : Source.Node) (slot : Nat) : Bool :=
  match slots with
  | .none => false
  | .listed slots => slots.contains slot
  | .last => slot + 1 = v.inputs

namespace OpKind

/-- The kind of an op type. -/
def ofName? : String → Option OpKind
  | "Add" | "AddV2" => some (arithmetic .add)
  | "Sub" => some (arithmetic .subtract)
  | "Mul" => some (arithmetic .multiply)
  | "RealDiv" => some (arithmetic .divide)
  | "Maximum" => some (arithmetic .maximum)
  | "Minimum" => some (arithmetic .minimum)
  | "FloorDiv" => some floorDivide
  | "FloorMod" => some floorModulo
  | "AddN" => some addAll
  | "Neg" => some (apply .negative)
  | "Floor" => some (apply .floor)
  | "Relu" => some (apply .relu)
  | "Relu6" => some reluSix
  | "Sigmoid" => some (apply .sigmoid)
  | "Tanh" => some (apply .tanh)
  | "Exp" => some (apply .exp)
  | "Sqrt" => some (apply .sqrt)
  | "Square" => some square
  | "Cast" => some cast
  | "Identity" | "StopGradient" | "Snapshot" => some identity
  | "NoOp" => some nothing
  | "Const" => some constant
  | "Reshape" => some reshape
  | "Transpose" => some transpose
  | "Squeeze" => some squeeze
  | "Sum" => some (reduce false)
  | "Mean" => some (reduce true)
  | "ConcatV2" => some concat
  | "Split" => some split
  | "MatMul" => some matMul
  | "BiasAdd" => some biasAdd
  | "Conv2D" => some convolve
  | "MaxPool" => some (pool false)
  | "AvgPool" => some (pool true)
  | "Softmax" => some softmax
  | _ => none

/-- The op types of a kind. -/
def names : OpKind → List String
  | arithmetic .add => ["Add", "AddV2"]
  | arithmetic .subtract => ["Sub"]
  | arithmetic .multiply => ["Mul"]
  | arithmetic .divide => ["RealDiv"]
  | arithmetic .maximum => ["Maximum"]
  | arithmetic .minimum => ["Minimum"]
  | floorDivide => ["FloorDiv"]
  | floorModulo => ["FloorMod"]
  | addAll => ["AddN"]
  | apply .negative => ["Neg"]
  | apply .floor => ["Floor"]
  | apply .relu => ["Relu"]
  | apply .sigmoid => ["Sigmoid"]
  | apply .tanh => ["Tanh"]
  | apply .exp => ["Exp"]
  | apply .sqrt => ["Sqrt"]
  | reluSix => ["Relu6"]
  | square => ["Square"]
  | cast => ["Cast"]
  | identity => ["Identity", "StopGradient", "Snapshot"]
  | nothing => ["NoOp"]
  | constant => ["Const"]
  | reshape => ["Reshape"]
  | transpose => ["Transpose"]
  | squeeze => ["Squeeze"]
  | reduce false => ["Sum"]
  | reduce true => ["Mean"]
  | concat => ["ConcatV2"]
  | split => ["Split"]
  | matMul => ["MatMul"]
  | biasAdd => ["BiasAdd"]
  | convolve => ["Conv2D"]
  | pool false => ["MaxPool"]
  | pool true => ["AvgPool"]
  | softmax => ["Softmax"]

/-- The table read from its other side. -/
theorem mem_names_of_ofName? {name : String} {kind : OpKind} (h : ofName? name = some kind) :
    name ∈ kind.names := by
  unfold ofName? at h
  split at h <;> cases h <;> decide

/-- The rule that lowers a kind. -/
def rule : OpKind → Rule
  | arithmetic f => Rule.arithmetic f
  | floorDivide => Rule.floorDivide
  | floorModulo => Rule.floorModulo
  | addAll => Rule.addAll
  | apply f => Rule.apply f
  | reluSix => Rule.reluSix
  | square => Rule.square
  | cast => Rule.cast
  | identity => Rule.identity
  | nothing => Rule.nothing
  | constant => Rule.constant
  | reshape => Rule.reshape
  | transpose => Rule.transpose
  | squeeze => Rule.squeeze
  | reduce mean => Rule.reduce mean
  | concat => Rule.concat
  | split => Rule.split
  | matMul => Rule.matMul
  | biasAdd => Rule.biasAdd
  | convolve => Rule.convolve
  | pool average => Rule.pool average
  | softmax => Rule.softmax

/-- The operands of a kind's rule. -/
def operandSlots : OpKind → OperandSlots
  | arithmetic _ | floorDivide | floorModulo | matMul | biasAdd | convolve => .listed [0, 1]
  | addAll | concat => .all
  | nothing | constant => .listed []
  | split => .listed [1]
  | _ => .listed [0]

/-- The slots on which a kind's rule needs a known value. -/
def staticSlots : OpKind → StaticSlots
  | reshape | transpose | reduce _ => .listed [1]
  | concat => .last
  | split => .listed [0]
  | _ => .none

end OpKind

/-- Whether an input slot of a node needs a known value; a node that cannot be lowered needs
none. -/
def needsValue (v : Source.Node) (slot : Nat) : Bool :=
  match OpKind.ofName? v.op with
  | some kind => kind.staticSlots.contains v slot
  | none => false

end GraphLowering
