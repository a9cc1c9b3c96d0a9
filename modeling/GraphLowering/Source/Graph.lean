import GraphLowering.Step
import GraphLowering.Source.Attribute

/-!
# Source graphs

The dataflow graph of a host. Nodes have a unique name, an op type, attributes and a declared number
of outputs. A data edge leads from an output slot of its producer to an input slot of its consumer;
a control edge only orders two nodes.

A graph grows by `addNode`, `addEdge` and `addControl`. Each of them runs on the graph so far and
either extends it or fails and leaves it as it was. Beside the nodes and edges the graph keeps what
its readers ask for: the edges at each node in the order of their insertion, the number of data
inputs of each node, and the node under each name.

* `Edge`, `Node`, `Graph` — the parts of a graph.
* `Node.int`, `Node.textOr`, … — the attributes of a node by kind.
* `Build` — a graph under construction.
* `Graph.inputEdge?`, `Graph.dataOutEdges` — the edges that carry data.
-/

namespace GraphLowering.Source

/-- What an edge carries: the data from an output slot to an input slot, or only order. -/
inductive EdgeKind where
  | data (output input : Nat)
  | control
  deriving DecidableEq

/-- An edge from one node to another. -/
structure Edge where
  src : Nat
  dst : Nat
  kind : EdgeKind
  deriving DecidableEq

namespace Edge

/-- Whether the edge carries data. -/
def isData (e : Edge) : Bool :=
  match e.kind with
  | .data _ _ => true
  | .control => false

/-- Whether the edge carries data into input slot `slot` of its consumer. -/
def enters (e : Edge) (slot : Nat) : Bool :=
  match e.kind with
  | .data _ input => input = slot
  | .control => false

end Edge

/-- The description of a node to be added to a graph. -/
structure NodeSpec where
  name : String
  op : String
  attrs : NameTable Attribute := .empty
  outputs : Nat := 1
  deriving DecidableEq

/-- A node of a graph: its description, its place, the number of its data inputs, and the edges at
it in the order of their insertion. -/
structure Node extends NodeSpec where
  index : Nat
  inputs : Nat := 0
  inEdges : List Nat := []
  outEdges : List Nat := []
  deriving DecidableEq

/-- The op types that branch, loop or gate, none of which has a lowering. -/
def controlFlowOps : List String :=
  ["Switch", "RefSwitch", "Merge", "RefMerge", "Enter", "RefEnter", "Exit", "RefExit",
   "NextIteration", "RefNextIteration", "LoopCond", "ControlTrigger"]

namespace Node

/-- Whether the node only marks the beginning or the end of the graph. -/
def isSentinel (v : Node) : Bool := v.op = "_SOURCE" || v.op = "_SINK"

/-- Whether the node branches, loops or gates. -/
def isControlFlow (v : Node) : Bool := controlFlowOps.contains v.op

/-- Whether the node stands for an argument of the function. -/
def isArgument (v : Node) : Bool := v.op = "_Arg"

/-- Whether the node stands for a result of the function. -/
def isReturn (v : Node) : Bool := v.op = "_Retval"

/-- The attribute under a key. -/
def attr? (v : Node) (key : String) : Option Attribute := v.attrs.get? key

/-- An attribute that must be of one kind, if it is there. -/
def attrOfKind? {α : Type} (v : Node) (key expected : String) (read : Attribute → Option α) :
    Except Error (Option α) :=
  match v.attr? key with
  | none => .ok none
  | some attr =>
    match read attr with
    | some value => .ok (some value)
    | none => .error (.invalid (.attributeKind v.name key attr.kind expected))

/-- An attribute that must be there and of one kind. -/
def attrOfKind {α : Type} (v : Node) (key expected : String) (read : Attribute → Option α) :
    Except Error α :=
  match v.attrOfKind? key expected read with
  | .ok (some value) => .ok value
  | .ok none => .error (.missingAttribute v.name key)
  | .error e => .error e

/-- A required integer. -/
def int (v : Node) (key : String) : Except Error Int :=
  v.attrOfKind key "int" Attribute.int?

/-- A Boolean with a default. -/
def boolOr (v : Node) (key : String) (default : Bool) : Except Error Bool :=
  (v.attrOfKind? key "bool" Attribute.bool?).map (·.getD default)

/-- A required text. -/
def text (v : Node) (key : String) : Except Error String :=
  v.attrOfKind key "string" Attribute.text?

/-- A text with a default. -/
def textOr (v : Node) (key default : String) : Except Error String :=
  (v.attrOfKind? key "string" Attribute.text?).map (·.getD default)

/-- A required data type. -/
def type (v : Node) (key : String) : Except Error DataType :=
  v.attrOfKind key "type" Attribute.type?

/-- A required list of integers. -/
def ints (v : Node) (key : String) : Except Error (List Int) :=
  v.attrOfKind key "list(int)" Attribute.ints?

/-- A required tensor. -/
def tensor (v : Node) (key : String) : Except Error Tensor :=
  v.attrOfKind key "tensor" Attribute.tensor?

end Node

/-- A dataflow graph. -/
structure Graph where
  nodes : Array Node := #[]
  edges : Array Edge := #[]
  byName : NameTable Nat := .empty
  deriving DecidableEq

instance : Inhabited Graph := ⟨{}⟩

namespace Graph

/-- The node at a place. -/
def node? (g : Graph) (i : Nat) : Option Node := g.nodes[i]?

/-- The node at a place that the graph itself has handed out. -/
def node (g : Graph) (i : Nat) : Except Error Node :=
  match g.node? i with
  | some v => .ok v
  | none => .error (.internal (.sourceNode i))

/-- The place of the node with a name. -/
def find? (g : Graph) (name : String) : Option Nat := g.byName.get? name

/-- The edges at a node, from the numbers under which it keeps them. -/
def edgesOf (g : Graph) (ids : List Nat) : List Edge := ids.filterMap fun e => g.edges[e]?

/-- The data edge into an input slot of a node. -/
def inputEdge? (g : Graph) (v : Node) (slot : Nat) : Option Edge :=
  (g.edgesOf v.inEdges).find? (·.enters slot)

/-- The data edges out of a node, in the order of their insertion. -/
def dataOutEdges (g : Graph) (v : Node) : List Edge :=
  (g.edgesOf v.outEdges).filter (·.isData)

end Graph

/-- A step that extends a graph, or fails. -/
abbrev Build := Step Graph

/-- Adds a node and gives its place; names are unique. -/
def addNode (spec : NodeSpec) : Build Nat := do
  let g ← get
  if g.byName.contains spec.name then
    throw (.invalid (.duplicateNode spec.name))
  let index := g.nodes.size
  set { g with
    nodes := g.nodes.push { spec with index }
    byName := g.byName.insert spec.name index }
  return index

/-- The node at a place that a caller names. -/
def nodeAt (index : Nat) : Build Node := do
  match (← get).node? index with
  | some v => return v
  | none => throw (.invalid (.noNode index))

/-- Adds an edge between two nodes of the graph and gives its number. -/
def pushEdge (edge : Edge) : Build Nat := do
  let g ← get
  let id := g.edges.size
  let nodes := g.nodes.modify edge.src fun v => { v with outEdges := v.outEdges ++ [id] }
  let nodes := nodes.modify edge.dst fun v =>
    { v with
      inEdges := v.inEdges ++ [id]
      inputs := if edge.isData then v.inputs + 1 else v.inputs }
  set { g with nodes, edges := g.edges.push edge }
  return id

/-- Connects an output slot of a node to a free input slot of a node. -/
def addEdge (src output dst input : Nat) : Build Nat := do
  let producer ← nodeAt src
  let consumer ← nodeAt dst
  if producer.outputs ≤ output then
    throw (.invalid (.noOutput producer.name producer.outputs output))
  if ((← get).inputEdge? consumer input).isSome then
    throw (.invalid (.inputConnected consumer.name input))
  pushEdge ⟨src, dst, .data output input⟩

/-- Orders one node before another. -/
def addControl (src dst : Nat) : Build Nat := do
  discard (nodeAt src)
  discard (nodeAt dst)
  pushEdge ⟨src, dst, .control⟩

end GraphLowering.Source
