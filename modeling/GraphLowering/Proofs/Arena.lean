import Mathlib
import GraphLowering.Proofs.Run

/-!
# The arena of a function

An arena starts empty and grows through three calls, which callers make one by one and lowering
rules make on their own. Whatever the calls are and however they end, the nodes agree with their
places and their types agree with inference, asked at any later time.

* `Graph.infer_mono` — an inferred type stays the same while the arena grows.
* `Graph.Fits`, `Graph.WellFormed` — a node, and all nodes, agree with their places and types.
* `Graph.GrowsTo`, `Graph.Built` — the steps of building an arena, and the arenas they build.
* `GrowsTo.kept` — what appending keeps is kept by every step, also by a rule that fails midway.
* `built_arenas_wellFormed` — every arena that is built is well formed, and the arenas of a run are
  built.
-/

namespace GraphLowering

open Source Target

/-! ### Inference in an arena -/

namespace Target.Graph

variable {g h : Graph} {op : Op} {ws : List Wire} {operands : List TensorType} {type : TensorType}

theorem infer_eq_ok :
    g.infer op ws = .ok type ↔
      ∃ operands, g.types ws = .ok operands ∧ op.infer operands = .ok type := by
  unfold infer
  cases g.types ws with
  | error w => simp
  | ok operands => simp

theorem types_cons_eq_ok {w : Wire} :
    g.types (w :: ws) = .ok operands ↔
      ∃ type rest, g.type? w = some type ∧ g.types ws = .ok rest ∧ operands = type :: rest := by
  rw [types]
  cases g.type? w with
  | none => simp
  | some type =>
    cases g.types ws with
    | error w => simp [Except.map]
    | ok rest => simp [Except.map, eq_comm]

theorem types_mono (hle : g ≤ h) (htypes : g.types ws = .ok operands) :
    h.types ws = .ok operands := by
  induction ws generalizing operands with
  | nil => exact htypes
  | cons w ws ih =>
    obtain ⟨type, rest, htype, hrest, rfl⟩ := types_cons_eq_ok.mp htypes
    exact types_cons_eq_ok.mpr ⟨type, rest, type?_mono hle htype, ih hrest, rfl⟩

/-- Inference gives the same answer in every later arena. -/
theorem infer_mono (hle : g ≤ h) (hinfer : g.infer op ws = .ok type) :
    h.infer op ws = .ok type := by
  obtain ⟨operands, htypes, htype⟩ := infer_eq_ok.mp hinfer
  exact infer_eq_ok.mpr ⟨operands, types_mono hle htypes, htype⟩

theorem lt_size_of_types (htypes : g.types ws = .ok operands) : ∀ w ∈ ws, w < g.size := by
  induction ws generalizing operands with
  | nil => simp
  | cons w ws ih =>
    obtain ⟨type, rest, htype, hrest, -⟩ := types_cons_eq_ok.mp htypes
    obtain ⟨v, hv, -⟩ := Option.map_eq_some_iff.mp htype
    exact List.forall_mem_cons.mpr ⟨(Array.getElem?_eq_some_iff.mp hv).1, ih hrest⟩

end Target.Graph

theorem Target.emit_error {g h : Target.Graph} {op : Op} {ws : List Wire} {e : Error}
    (herror : emit op ws g = .error e h) : h = g := by
  rw [emit_eq] at herror
  cases hinfer : g.infer op ws with
  | ok type => simp [hinfer] at herror
  | error e' =>
    simp only [hinfer, EStateM.Result.error.injEq] at herror
    exact herror.2.symm

/-- An op that inference never gives a type to is never appended. -/
theorem Target.emit_refused {op : Op} (hop : ∀ operands type, op.infer operands ≠ .ok type)
    (g : Target.Graph) (ws : List Wire) : ∃ e, emit op ws g = .error e g := by
  cases hinfer : g.infer op ws with
  | error e => exact ⟨e, by rw [emit_eq, hinfer]⟩
  | ok type =>
    obtain ⟨operands, -, htype⟩ := Graph.infer_eq_ok.mp hinfer
    exact absurd htype (hop operands type)

/-! ### Well-formed arenas -/

namespace Target.Graph

variable {g h : Graph}

/-- The node at place `w` agrees with the arena: it knows its place and reads earlier nodes, a
constant has the type of its value, and any other node that is not a parameter has the type that
inference gives for its op and its inputs. -/
structure Fits (g : Graph) (w : Wire) (v : Node) : Prop where
  id : v.id = w
  earlier : ∀ u ∈ v.inputs, u < w
  constant : ∀ value, v.op = .constant value → v.type = ⟨value.type, value.shape⟩
  inferred : (∀ k, v.op ≠ .parameter k) → (∀ value, v.op ≠ .constant value) →
    g.infer v.op v.inputs = .ok v.type

/-- Every node of the arena agrees with it. -/
def WellFormed (g : Graph) : Prop := ∀ (w : Wire) (v : Node), g.nodes[w]? = some v → g.Fits w v

theorem Fits.mono {w : Wire} {v : Node} (hle : g ≤ h) (hfits : g.Fits w v) : h.Fits w v where
  id := hfits.id
  earlier := hfits.earlier
  constant := hfits.constant
  inferred hparameter hconstant := infer_mono hle (hfits.inferred hparameter hconstant)

theorem wellFormed_empty : WellFormed {} := by
  intro w v hv
  simp at hv

/-- A node that agrees with the arena it completes keeps the arena well formed. -/
theorem WellFormed.push (wf : g.WellFormed) {op : Op} {ws : List Wire} {type : TensorType}
    (hnew : (g.push op ws type).Fits g.size ⟨g.size, op, ws, type⟩) :
    (g.push op ws type).WellFormed := by
  intro w v hv
  rw [Graph.push, Array.getElem?_push] at hv
  split at hv
  case isTrue hw =>
    obtain rfl : w = g.size := hw
    obtain rfl := Option.some.inj hv
    exact hnew
  case isFalse => exact (wf w v hv).mono (le_push g op ws type)

theorem WellFormed.push_parameter (wf : g.WellFormed) (k : Nat) (type : TensorType) :
    (g.push (.parameter k) [] type).WellFormed := by
  refine wf.push ⟨rfl, by simp, ?_, ?_⟩
  · intro value hop
    cases hop
  · intro hparameter _
    exact absurd rfl (hparameter k)

end Target.Graph

/-- Constants, and ops with their inferred type, keep an arena well formed. -/
theorem keptByAppend_wellFormed : KeptByAppend Target.Graph.WellFormed := by
  intro g op ws operands type wf htypes hfits
  have hle := g.le_push op ws type
  refine wf.push ⟨rfl, Graph.lt_size_of_types htypes, ?_, ?_⟩
  · intro value hop
    cases hfits with
    | constant value' hop' _ htype =>
      obtain rfl : value' = value := Op.constant.inj (hop'.symm.trans hop)
      exact htype
    | inferred hinfer =>
      -- inference refuses constants
      obtain rfl : op = .constant value := hop
      cases hinfer
  · intro _ hconstant
    cases hfits with
    | constant value hop _ _ => exact absurd hop (hconstant value)
    | inferred hinfer =>
      exact Graph.infer_mono hle (Graph.infer_eq_ok.mpr ⟨operands, htypes, hinfer⟩)

/-! ### Building an arena -/

namespace Target.Graph

/-- The arena that a step leaves behind, whether it succeeds or fails. -/
def after {α : Type} (g : Graph) (step : Emit α) : Graph :=
  match step g with
  | .ok _ h => h
  | .error _ h => h

/-- A step of building an arena: one of the three calls, or a lowering rule on wires of the arena,
as many as its kind has operands. Any of them may fail. -/
inductive GrowsTo (g : Graph) : Graph → Prop where
  | parameter (k : Nat) (type : TensorType) : GrowsTo g (g.after (emitParameter k type))
  | constant (value : Tensor) : GrowsTo g (g.after (emitConstant value))
  | op (op : Op) (ws : List Wire) : GrowsTo g (g.after (emit op ws))
  | rule (kind : OpKind) (ctx : Context) (ws : List Wire) (hws : ∀ w ∈ ws, g.Has w)
      (hlength : ws.length = (kind.operandSlots.of ctx.node).length) :
      GrowsTo g (g.after (kind.rule ctx ws))

/-- Some steps build the arena from the empty one. -/
inductive Built : Graph → Prop where
  | empty : Built {}
  | step {g h : Graph} (hg : Built g) (hstep : g.GrowsTo h) : Built h

end Target.Graph

/-- A rule only appends, and keeps what appending keeps, whether it succeeds or fails. -/
theorem OpKind.after_rule {kind : OpKind} {ctx : Context} {ws : List Wire} {g : Target.Graph}
    {P : Target.Graph → Prop} (hkept : KeptByAppend P) (hws : ∀ w ∈ ws, g.Has w)
    (hlength : ws.length = (kind.operandSlots.of ctx.node).length) (hP : P g) :
    g ≤ g.after (kind.rule ctx ws) ∧ P (g.after (kind.rule ctx ws)) := by
  have htwin := OpKind.rule_twin_self hws hlength hkept hP
  unfold Target.Graph.after
  cases hrule : kind.rule ctx ws g with
  | ok outputs h =>
    rw [hrule] at htwin
    cases htwin with
    | ok hle _ harenas _ => exact ⟨hle, harenas.2⟩
  | error e h =>
    rw [hrule] at htwin
    cases htwin with
    | error hle _ harenas _ => exact ⟨hle, harenas.2⟩

namespace Target.Graph

variable {g h : Graph}

/-- A step of building only appends, and keeps what appending a parameter, a constant or an op with
its inferred type keeps. -/
theorem GrowsTo.kept {P : Graph → Prop} (hkept : KeptByAppend P)
    (hparameter : ∀ g k type, P g → P (g.push (.parameter k) [] type)) (hstep : g.GrowsTo h)
    (hP : P g) : g ≤ h ∧ P h := by
  cases hstep with
  | parameter k type => exact ⟨g.le_push _ _ _, hparameter g k type hP⟩
  | constant value =>
    exact ⟨g.le_push _ _ _, hkept g _ [] [] _ hP rfl (.constant value rfl rfl rfl)⟩
  | op op ws =>
    rw [after, emit_eq]
    cases hinfer : g.infer op ws with
    | error e => exact ⟨le_rfl, hP⟩
    | ok type =>
      obtain ⟨operands, htypes, htype⟩ := infer_eq_ok.mp hinfer
      exact ⟨g.le_push _ _ _, hkept g op ws operands type hP htypes (.inferred htype)⟩
  | rule kind ctx ws hws hlength => exact OpKind.after_rule hkept hws hlength hP

theorem GrowsTo.le (hstep : g.GrowsTo h) : g ≤ h :=
  (hstep.kept keptByAppend_true (fun _ _ _ _ => trivial) trivial).1

theorem WellFormed.grow (wf : g.WellFormed) (hstep : g.GrowsTo h) : h.WellFormed :=
  (hstep.kept keptByAppend_wellFormed (fun _ k type wf => wf.push_parameter k type) wf).2

theorem Built.wellFormed (hg : g.Built) : g.WellFormed := by
  induction hg with
  | empty => exact wellFormed_empty
  | step _ hstep ih => exact ih.grow hstep

end Target.Graph

/-! ### The arenas of a run -/

namespace Compiled.Prepared

variable {c : Compiled} (hc : c.Prepared) {args : List Argument}
include hc

theorem params_built {s : Run × List (Option Wire)}
    (h : c.parts.params.foldlM (addParameter c.graph args)
      ({}, List.replicate c.parts.params.length none) = .ok s) : s.1.target.Built := by
  refine foldlM_ok_induct (fun _ (s : Run × List (Option Wire)) => s.1.target.Built) .empty ?_ h
  rintro done i rest ⟨run, slots⟩ s' hsplit hbuilt hstep
  obtain ⟨v, hv⟩ := hc.node?_of_mem_params (i := i) (by simp [hsplit])
  obtain ⟨k, type, -, -, rfl⟩ := (addParameter_eq_ok hv).mp hstep
  exact hbuilt.step (.parameter k type)

/-- The rule of an op runs on wires of the arena, as many as its kind has operands. -/
theorem growsTo_rule {done : List Nat} {run : Run} (hcovers : Covers c.graph done run) {i : Nat}
    {v : Source.Node} (hv : c.graph.node? i = some v) {kind : OpKind} {ws : List Wire}
    (hws : (kind.operandSlots.of v).mapM (resolveInput c.graph run.outputs v) = .ok ws)
    (statics : List (Option Tensor)) :
    run.target.GrowsTo (run.target.after (kind.rule ⟨v, c.graph, statics⟩ ws)) :=
  .rule kind ⟨v, c.graph, statics⟩ ws (hcovers.has_of_mapM hc.wf hv hws)
    (except_mapM_eq_ok.mp hws).length_eq.symm

theorem ops_built {start run : Run} (hstart : Covers c.graph c.parts.params start)
    (hbuilt : start.target.Built) {done rest : List Nat} (hsplit : c.parts.ops = done ++ rest)
    {statics : List (Option Tensor)}
    (h : done.foldlM (lowerOp c.graph statics) start = .ok run) : run.target.Built := by
  refine foldlM_ok_run (fun _ (run : Run) => run.target.Built) hbuilt ?_ h
  intro front i back run run' hfront hrun hbuilt hstep
  have hsplit' : c.parts.ops = front ++ i :: (back ++ rest) := by rw [hsplit, hfront]; simp
  obtain ⟨v, hv⟩ := hc.node?_of_mem_ops (i := i) (by simp [hsplit'])
  obtain ⟨kind, ws, outputs, target, -, hws, -, hrule, rfl⟩ := (lowerOp_eq_ok hv).mp hstep
  have hgrows := hc.growsTo_rule (hc.ops_done hstart hsplit' hrun).covers hv hws statics
  rw [Target.Graph.after, hrule] at hgrows
  exact hbuilt.step hgrows

theorem meets_built {i : Nat} {run : Run} (h : c.Meets args i run) : run.target.Built := by
  obtain ⟨done, rest, start, slots, hsplit, hparams, hops⟩ := h
  exact hc.ops_built (hc.params_done hparams).covers (hc.params_built hparams) hsplit hops

theorem lower_built {f : Function} (h : c.lower args = .ok f) : f.graph.Built := by
  obtain ⟨run, parameters, results, hrun, -, rfl⟩ := lower_eq_ok.mp h
  obtain ⟨start, hparams, hops⟩ := runOps_eq_ok.mp hrun
  exact hc.ops_built (hc.params_done hparams).covers (hc.params_built hparams)
    (List.append_nil _).symm hops

end Compiled.Prepared

/-- **Every arena that is built is well formed.** A step of building only appends, whether it
succeeds or fails; an op that is refused leaves the arena as it was, and parameters and constants
are always refused as ops. The arenas of a run are built in this way: the one in which it meets an
op, the one that the rule of the op leaves behind, and that of the function. -/
theorem built_arenas_wellFormed :
    (∀ g : Target.Graph, g.Built → g.WellFormed) ∧
    (∀ g h : Target.Graph, g.GrowsTo h → g ≤ h) ∧
    (∀ g h op ws e, emit op ws g = .error e h → h = g) ∧
    (∀ g ws k, ∃ e, emit (.parameter k) ws g = .error e g) ∧
    (∀ g ws value, ∃ e, emit (.constant value) ws g = .error e g) ∧
    ∀ (source : Source.Graph) (c : Compiled) (args : List Argument), source.Built →
      prepare source = .ok c →
      (∀ i run v kind ws, c.Meets args i run → source.node? i = some v →
        OpKind.ofName? v.op = some kind →
        (kind.operandSlots.of v).mapM (resolveInput source run.outputs v) = .ok ws →
        run.target.Built ∧
          run.target.GrowsTo (run.target.after (kind.rule ⟨v, source, c.statics args⟩ ws))) ∧
      ∀ f, c.lower args = .ok f → f.graph.Built := by
  refine ⟨fun g hg => hg.wellFormed, fun g h hstep => hstep.le,
    fun g h op ws e herror => emit_error herror, ?_, ?_, ?_⟩
  · intro g ws k
    exact emit_refused (fun operands type htype => by cases htype) g ws
  · intro g ws value
    exact emit_refused (fun operands type htype => by cases htype) g ws
  · intro source c args hbuilt hprepare
    have hc := prepared_of_prepare hbuilt.wellFormed hprepare
    obtain ⟨rfl, -⟩ := prepare_eq_ok hprepare
    refine ⟨?_, fun f hf => hc.lower_built hf⟩
    intro i run v kind ws hmeets hv _ hws
    obtain ⟨done, rest, start, slots, -, -, hops⟩ := hc.meets_spec hmeets
    exact ⟨hc.meets_built hmeets, hc.growsTo_rule hops.covers hv hws _⟩

/-- A sum of tensors whose shapes can be brought together but whose element types cannot. -/
def mixedSum : Source.Graph := Graph.build [
  .node { name := "a", op := "_Arg",
          attrs := (NameTable.empty.insert "T" (.type .float)).insert "index" (.int 0) },
  .node { name := "b", op := "_Arg",
          attrs := (NameTable.empty.insert "T" (.type .int32)).insert "index" (.int 1) },
  .node { name := "s", op := "Add" },
  .node { name := "y", op := "_Retval", attrs := NameTable.empty.insert "index" (.int 0) },
  .edge 0 0 2 0, .edge 1 0 2 1, .edge 2 0 3 0]

/-- The rule of the sum fails behind the broadcast that it has appended. -/
theorem mixedSum_leaves_broadcast :
    ∃ c run v e h, prepare mixedSum = .ok c ∧
      c.Meets [⟨.float, [2, 3], none⟩, ⟨.int32, [3], none⟩] 2 run ∧ mixedSum.node? 2 = some v ∧
      (OpKind.arithmetic .add).rule ⟨v, mixedSum, [none, none]⟩ [1, 0] run.target = .error e h ∧
      h.nodes[2]? = some ⟨2, .broadcast [2, 3] [0], [0], ⟨.i32, [2, 3]⟩⟩ ∧ run.target ≤ h ∧
      h.WellFormed := by
  obtain ⟨hwellFormed, hgrows, -, -, -, hruns⟩ := built_arenas_wellFormed
  have hprepare : prepare mixedSum =
      .ok ⟨mixedSum, ⟨[1, 0], [3], [2]⟩, [false, false]⟩ := by rfl
  have hmeets : (⟨mixedSum, ⟨[1, 0], [3], [2]⟩, [false, false]⟩ : Compiled).Meets
      [⟨.float, [2, 3], none⟩, ⟨.int32, [3], none⟩] 2
      ⟨⟨#[⟨0, .parameter 1, [], ⟨.i32, [3]⟩⟩, ⟨1, .parameter 0, [], ⟨.f32, [2, 3]⟩⟩]⟩,
        (NameTable.empty.insert "b" [some 0]).insert "a" [some 1]⟩ :=
    ⟨[], [], _, _, rfl, rfl, rfl⟩
  obtain ⟨hbuilt, hstep⟩ := (hruns _ _ _ ⟨_, rfl⟩ hprepare).1 2 _ _ (.arithmetic .add) [1, 0]
    hmeets rfl rfl rfl
  exact ⟨_, _, _, _, _, hprepare, hmeets, rfl, rfl, rfl, hgrows _ _ hstep,
    hwellFormed _ (hbuilt.step hstep)⟩

end GraphLowering
