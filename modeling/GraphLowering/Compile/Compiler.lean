import GraphLowering.Compile.Partition
import GraphLowering.Compile.StaticArguments
import GraphLowering.Compile.Inputs

/-!
# The compiler

A graph is prepared once: ordered, taken apart, and searched for the arguments whose value is
needed. A prepared graph is then lowered for the shapes of concrete arguments, any number of times;
nothing is carried from one run to the next.

* `Argument` — an argument of a run.
* `Compiled`, `prepare` — a prepared graph.
* `Run` — the state of a run: the target graph and the outputs of the nodes lowered so far.
* `Compiled.lower` — a run: the parameters, then the ops in topological order, then the results.
-/

namespace GraphLowering

open Target (Wire Emit Function emitParameter)

/-- An argument of a run. Its value is needed only at the positions that the graph uses as static
inputs. -/
structure Argument where
  type : DataType
  shape : List Int
  value : Option Tensor := none
  deriving DecidableEq

/-- A graph prepared for lowering. -/
structure Compiled where
  graph : Source.Graph
  parts : Partition
  flags : List Bool
  deriving DecidableEq

/-- Prepares a graph. -/
def prepare (g : Source.Graph) : Except Error Compiled := do
  let ordered ← g.order
  let parts ← Partition.of g ordered
  let flags ← staticFlags g parts.params
  return ⟨g, parts, flags⟩

/-- The state of a run. -/
structure Run where
  target : Target.Graph := {}
  outputs : OutputMap := .empty
  deriving DecidableEq

namespace Run

/-- Appends to the target graph. -/
def emitting {α : Type} (run : Run) (step : Emit α) : Except Error (α × Run) :=
  match step run.target with
  | .ok a target => .ok (a, { run with target })
  | .error e _ => .error e

/-- Keeps the outputs of a lowered node. -/
def save (run : Run) (name : String) (outputs : Outputs) : Run :=
  { run with outputs := run.outputs.insert name outputs }

end Run

/-- Position `index` of a list to be filled must exist and be free. -/
def checkPlace (slots : List (Option Wire)) (index : Nat) (name : String) : Except Error Unit :=
  match slots[index]? with
  | none => .error (.invalid (.indexRange name index slots.length))
  | some (some _) => .error (.invalid (.indexReused name index))
  | some none => .ok ()

/-- Makes the parameter of one argument node and puts it at its position. -/
def addParameter (g : Source.Graph) (args : List Argument) :
    Run × List (Option Wire) → Nat → Except Error (Run × List (Option Wire))
  | (run, slots), i => do
    let v ← g.node i
    let type ← v.type "T"
    let index ← position v
    checkPlace slots index v.name
    match args[index]? with
    | none => throw (.invalid (.argumentNotSupplied v.name index args.length))
    | some arg =>
      let element ← type.element
      let shape ← Shape.ofDims arg.shape
      let (w, run) ← run.emitting (emitParameter index ⟨element, shape⟩)
      return (run.save v.name [some w], slots.set index (some w))

/-- Lowers one op node. There has to be room for its output slots. -/
def lowerOp (g : Source.Graph) (statics : List (Option Tensor)) (run : Run) (i : Nat) :
    Except Error Run := do
  let v ← g.node i
  match OpKind.ofName? v.op with
  | none => throw (.unsupportedOp v.name v.op)
  | some kind =>
    let inputs ← (kind.operandSlots.of v).mapM (resolveInput g run.outputs v)
    needRoom v.outputs slotBytes
    let (outputs, run) ← run.emitting (kind.rule ⟨v, g, statics⟩ inputs)
    return run.save v.name outputs

/-- Finds the wire of one return node and puts it at its position. -/
def addResult (g : Source.Graph) (outputs : OutputMap) (slots : List (Option Wire)) (i : Nat) :
    Except Error (List (Option Wire)) := do
  let v ← g.node i
  if v.inputs ≠ 1 then
    throw (.invalid (.returnInputs v.name v.inputs))
  let index ← position v
  checkPlace slots index v.name
  let w ← resolveInput g outputs v 0
  return slots.set index (some w)

namespace Compiled

/-- Whether the argument at a position must come with a value. -/
def isStatic (c : Compiled) (index : Nat) : Bool := c.flags[index]?.getD false

/-- The values that lowering may look at: those of the static arguments. -/
def statics (c : Compiled) (args : List Argument) : List (Option Tensor) :=
  args.zipIdx.map fun (arg, index) => if c.isStatic index then arg.value else none

/-- Lowers the graph for the given arguments. -/
def lower (c : Compiled) (args : List Argument) : Except Error Function := do
  let places := fun (nodes : List Nat) => (List.replicate nodes.length none : List (Option Wire))
  let (run, parameters) ←
    c.parts.params.foldlM (addParameter c.graph args) ({}, places c.parts.params)
  let run ← c.parts.ops.foldlM (lowerOp c.graph (c.statics args)) run
  let results ← c.parts.returns.foldlM (addResult c.graph run.outputs) (places c.parts.returns)
  return ⟨run.target, parameters.filterMap id, results.filterMap id⟩

end Compiled

end GraphLowering
