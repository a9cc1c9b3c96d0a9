import GraphLowering.Step
import GraphLowering.Target.Infer

/-!
# Target graphs

A lowered function is built in an arena: a list of nodes that only grows, in which a node reads
nodes before it. A node is known by its wire, which is its place in the arena.

* `Node`, `Graph` — the arena.
* `Emit` — a step that appends to the arena. A step that fails keeps what it has appended, so the
  helper nodes of a rejected op stay visible.
* `emitParameter`, `emitConstant`, `emit` — the three ways to append a node.
* `Function` — parameters and results over an arena, with its printed form `Function.text`.
-/

namespace GraphLowering.Target

/-- The place of a node in the arena. -/
abbrev Wire := Nat

/-- A node of the arena. -/
structure Node where
  id : Wire
  op : Op
  inputs : List Wire
  type : TensorType
  deriving DecidableEq

/-- The arena. -/
structure Graph where
  nodes : Array Node := #[]
  deriving DecidableEq

instance : Inhabited Graph := ⟨{}⟩

namespace Graph

/-- How many nodes there are. -/
def size (g : Graph) : Nat := g.nodes.size

/-- The type of the tensor on a wire. -/
def type? (g : Graph) (w : Wire) : Option TensorType := g.nodes[w]?.map (·.type)

/-- The arena with one more node. -/
def push (g : Graph) (op : Op) (inputs : List Wire) (type : TensorType) : Graph :=
  ⟨g.nodes.push ⟨g.size, op, inputs, type⟩⟩

/-- The types on the given wires, or the first wire that is not in the arena. -/
def types (g : Graph) : List Wire → Except Wire (List TensorType)
  | [] => .ok []
  | w :: ws =>
    match g.type? w with
    | none => .error w
    | some type => (g.types ws).map (type :: ·)

@[simp] theorem size_push (g : Graph) (op : Op) (inputs : List Wire) (type : TensorType) :
    (g.push op inputs type).size = g.size + 1 := by
  simp [push, size]

@[simp] theorem type?_push_self (g : Graph) (op : Op) (inputs : List Wire) (type : TensorType) :
    (g.push op inputs type).type? g.size = some type := by
  simp [push, type?, size]

theorem type?_push_of_lt {g : Graph} {w : Wire} (op : Op) (inputs : List Wire) (type : TensorType)
    (h : w < g.size) : (g.push op inputs type).type? w = g.type? w := by
  have hne : w ≠ g.nodes.size := Nat.ne_of_lt h
  simp [push, type?, Array.getElem?_push, hne]

end Graph

/-- A step that appends to the arena, or fails. -/
abbrev Emit := Step Graph

/-- Appends a node whose type is known. -/
def emitNode (op : Op) (inputs : List Wire) (type : TensorType) : Emit Wire :=
  modifyGet fun g => (g.size, g.push op inputs type)

/-- Appends the parameter of the function at position `index`. -/
def emitParameter (index : Nat) (type : TensorType) : Emit Wire :=
  emitNode (.parameter index) [] type

/-- Appends a constant. -/
def emitConstant (value : Tensor) : Emit Wire :=
  emitNode (.constant value) [] ⟨value.type, value.shape⟩

/-- Appends an op on wires of the arena; its type is inferred. -/
def emit (op : Op) (inputs : List Wire) : Emit Wire := do
  match (← get).types inputs with
  | .error w => throw (.mismatch (.noNode op.name w))
  | .ok operands =>
    let type ← op.infer operands
    emitNode op inputs type

/-- The type of the tensor on a wire that the arena has handed out. -/
def typeOf (w : Wire) : Emit TensorType := do
  match (← get).type? w with
  | some type => return type
  | none => throw (.internal (.wire w))

/-- The shape of the tensor on a wire. -/
def shapeOf (w : Wire) : Emit Shape := return (← typeOf w).shape

/-- A closed function: its parameters and results as wires of an arena. -/
structure Function where
  graph : Graph
  parameters : List Wire
  results : List Wire
  deriving DecidableEq

/-- Wires as they are printed: `%0, %3`. -/
def wiresText (ws : List Wire) : String :=
  ", ".intercalate (ws.map fun w => "%" ++ toString w)

namespace Node

/-- What stands behind the name of a node's op: the position of a parameter, the size of a constant,
or the operands. -/
def detail (v : Node) : String :=
  match v.op with
  | .parameter index => s!"[{index}]"
  | .constant value => s!"[{value.shape.elements} elements]"
  | _ => s!"({wiresText v.inputs})"

/-- The line of a node. -/
def text (v : Node) : String :=
  s!"  %{v.id} = {v.op.name}{v.detail} : {typeText v.type.element v.type.shape}\n"

/-- Equality of nodes, floating-point constants compared as numbers. -/
def sameNumbers (v w : Node) : Bool :=
  v.id = w.id && v.op.sameNumbers w.op && v.inputs = w.inputs && v.type = w.type

end Node

namespace Function

/-- The function as text: a head with the parameters and results, and one line for each node. -/
def text (f : Function) : String :=
  f.graph.nodes.foldl (fun acc v => acc ++ v.text)
    s!"function({wiresText f.parameters}) -> ({wiresText f.results})\n"

/-- Equality of functions, floating-point constants compared as numbers. -/
def sameNumbers (f g : Function) : Bool :=
  f.parameters = g.parameters && f.results = g.results &&
    f.graph.nodes.isEqv g.graph.nodes Node.sameNumbers

end Function

end GraphLowering.Target
