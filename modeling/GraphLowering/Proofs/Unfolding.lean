import Mathlib
import GraphLowering.Proofs.Simulation

/-!
# Expression trees

A wire of the arena stands for an expression: the op and the type of its node, over the expressions
of the wires that the node reads. Two arenas may number their nodes differently and still hold the
same expressions.

* `Target.Expr` — expressions, down to the parameters and constants.
* `Target.Graph.expr?` — the expression that a wire unfolds to.
* `expr?_of_le` — a growing arena keeps the expressions of its wires.
* `Simulation.trees` — wires with the same expression are alike.
-/

namespace GraphLowering

open Target

namespace Target

/-- An expression: an op with the type of its result, over the expressions of its operands. -/
inductive Expr where
  | node (op : Op) (type : TensorType) (operands : List Expr)

/-- The type of an expression's value. -/
def Expr.type : Expr → TensorType
  | node _ type _ => type

namespace Graph

/-- The expression that a wire unfolds to. A node that reads itself or a later node has none. -/
def expr? (g : Graph) (w : Wire) : Option Expr :=
  match g.nodes[w]? with
  | none => none
  | some v =>
    (v.inputs.mapM fun i => if i < w then g.expr? i else none).map (Expr.node v.op v.type)
termination_by w

variable {g h : Graph} {w : Wire}

theorem expr?_of_node {v : Node} (hv : g.nodes[w]? = some v) :
    g.expr? w = (v.inputs.mapM fun i => if i < w then g.expr? i else none).map
      (Expr.node v.op v.type) := by
  rw [expr?, hv]

theorem exists_node_of_expr? {e : Expr} (he : g.expr? w = some e) : ∃ v, g.nodes[w]? = some v := by
  rw [expr?] at he
  cases hv : g.nodes[w]? with
  | none => simp [hv] at he
  | some v => exact ⟨v, rfl⟩

/-- A growing arena keeps the expressions of its wires. -/
theorem expr?_of_le (hle : g ≤ h) (hw : w < g.size) : g.expr? w = h.expr? w := by
  induction w using Nat.strong_induction_on with
  | _ w ih =>
    have hv : g.nodes[w]? = some g.nodes[w] := Array.getElem?_eq_getElem hw
    rw [expr?_of_node hv, expr?_of_node (hle w _ hv)]
    -- operands are unfolded only below the wire, where both arenas agree
    have hoperands : (fun i => if i < w then g.expr? i else none) =
        fun i => if i < w then h.expr? i else none := by
      funext i
      by_cases hi : i < w
      · rw [if_pos hi, if_pos hi, ih i hi (hi.trans hw)]
      · rw [if_neg hi, if_neg hi]
    rw [hoperands]

theorem lt_size_of_expr? {e : Expr} (he : g.expr? w = some e) : w < g.size := by
  obtain ⟨v, hv⟩ := exists_node_of_expr? he
  exact (Array.getElem?_eq_some_iff.mp hv).1

theorem expr?_mono {e : Expr} (hle : g ≤ h) (he : g.expr? w = some e) : h.expr? w = some e := by
  rw [← expr?_of_le hle (lt_size_of_expr? he)]
  exact he

theorem type?_of_expr? {e : Expr} (he : g.expr? w = some e) : g.type? w = some e.type := by
  obtain ⟨v, hv⟩ := exists_node_of_expr? he
  rw [expr?_of_node hv] at he
  obtain ⟨operands, -, rfl⟩ := Option.map_eq_some_iff.mp he
  rw [type?, hv]
  rfl

/-- A node whose operands have expressions has one. -/
theorem expr?_of_operands {v : Node} (hv : g.nodes[w]? = some v) {operands : List Expr}
    (hinputs : List.Forall₂ (fun i e => i < w ∧ g.expr? i = some e) v.inputs operands) :
    g.expr? w = some (.node v.op v.type operands) := by
  rw [expr?_of_node hv]
  have hmap : (v.inputs.mapM fun i => if i < w then g.expr? i else none) = some operands := by
    refine option_mapM_eq_some.mpr (hinputs.imp fun i e hi => ?_)
    rw [if_pos hi.1, hi.2]
  rw [hmap]
  rfl

theorem expr?_push_self {op : Op} {ws : List Wire} {type : TensorType} {operands : List Expr}
    (hws : List.Forall₂ (fun i e => g.expr? i = some e) ws operands) :
    (g.push op ws type).expr? g.size = some (.node op type operands) := by
  refine expr?_of_operands (node_push_self g op ws type) (hws.imp fun i e he => ?_)
  exact ⟨lt_size_of_expr? he, expr?_mono (le_push g op ws type) he⟩

end Graph

end Target

/-- Wires with the same expression are alike, whatever their places. -/
def Simulation.trees : Simulation where
  arenas _ _ := True
  wires g g' w w' := ∃ e, g.expr? w = some e ∧ g'.expr? w' = some e
  wires_mono := by
    rintro g g' h h' w w' hle hle' ⟨e, he, he'⟩
    exact ⟨e, Graph.expr?_mono hle he, Graph.expr?_mono hle' he'⟩
  wires_type := by
    rintro g g' w w' ⟨e, he, he'⟩
    exact ⟨e.type, Graph.type?_of_expr? he, Graph.type?_of_expr? he'⟩
  append := by
    rintro g g' op ws ws' _ type - hws - - -
    obtain ⟨operands, hoperands, hoperands'⟩ : ∃ operands,
        List.Forall₂ (fun w e => g.expr? w = some e) ws operands ∧
        List.Forall₂ (fun w e => g'.expr? w = some e) ws' operands := by
      induction hws with
      | nil => exact ⟨[], .nil, .nil⟩
      | cons hw _ ih =>
        obtain ⟨e, he, he'⟩ := hw
        obtain ⟨operands, hoperands, hoperands'⟩ := ih
        exact ⟨e :: operands, .cons he hoperands, .cons he' hoperands'⟩
    exact ⟨trivial, _, Graph.expr?_push_self hoperands, Graph.expr?_push_self hoperands'⟩

end GraphLowering
