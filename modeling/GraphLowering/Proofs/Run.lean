import Mathlib
import GraphLowering.Proofs.Filling
import GraphLowering.Proofs.Inputs
import GraphLowering.Proofs.RuleSimulation

/-!
# The steps of a run

A run makes the parameters, lowers the ops and collects the results. For each of the three kinds of
step this module says once when it succeeds and what it then does, and how it can fail. What the
steps keep is carried through the folds:

* `addParameter_eq_ok`, `lowerOp_eq_ok`, `addResult_eq_ok` — the steps.
* `Simulation.keeping`, `OpKind.rule_ok` — a rule only appends, and gives wires of the arena.
* `Covers` — the outputs that are kept belong to the nodes lowered so far, and are wires of the
  arena.
* `Entered`, `Lowered`, `Returned` — what one node has left behind in a run that went on.
* `params_spec`, `ops_spec`, `results_spec` — the three parts of a run.
* `Compiled.Meets` — the state in which a run meets an op.
-/

namespace GraphLowering

open Source Target

/-! ### The steps -/

/-- What an argument node and the arguments of the run say of a parameter: its position and type. -/
def Supplied (args : List Argument) (v : Source.Node) (k : Nat) (type : TensorType) : Prop :=
  position v = .ok k ∧ ∃ declared arg, v.type "T" = .ok declared ∧ args[k]? = some arg ∧
    declared.element = .ok type.element ∧ Shape.ofDims arg.shape = .ok type.shape

/-- The run with another arena and the outputs of one more node. -/
def Run.extend (run : Run) (target : Target.Graph) (name : String) (outputs : Outputs) : Run :=
  ⟨target, run.outputs.insert name outputs⟩

theorem Run.get?_extend (run : Run) (target : Target.Graph) (name other : String)
    (outputs : Outputs) : (run.extend target name outputs).outputs.get? other =
      if other = name then some outputs else run.outputs.get? other :=
  NameTable.get?_insert _ _ _ _

theorem Run.get?_extend_self (run : Run) (target : Target.Graph) (name : String)
    (outputs : Outputs) : (run.extend target name outputs).outputs.get? name = some outputs := by
  rw [get?_extend, if_pos rfl]

theorem checkPlace_eq_ok {slots : List (Option Wire)} {k : Nat} {name : String} {u : Unit} :
    checkPlace slots k name = .ok u ↔ slots[k]? = some none := by
  unfold checkPlace
  split
  case h_1 h => simp [h]
  case h_2 h => simp [h]
  case h_3 h => simp [h]

section Steps

variable {g : Source.Graph} {i : Nat} {v : Source.Node} (hv : g.node? i = some v)
include hv

theorem addParameter_eq_ok {args : List Argument} {run : Run} {slots : List (Option Wire)}
    {next : Run × List (Option Wire)} :
    addParameter g args (run, slots) i = .ok next ↔
      ∃ k type, Supplied args v k type ∧ slots[k]? = some none ∧
        next = (run.extend (run.target.push (.parameter k) [] type) v.name [some run.target.size],
          slots.set k (some run.target.size)) := by
  rw [addParameter, Graph.node_of_some hv, except_ok_bind]
  constructor
  · intro h
    obtain ⟨declared, hdeclared, h⟩ := except_bind_eq_ok.mp h
    obtain ⟨k, hk, h⟩ := except_bind_eq_ok.mp h
    obtain ⟨_, hfree, h⟩ := except_bind_eq_ok.mp h
    split at h
    · cases h
    case h_2 arg harg =>
      obtain ⟨element, helement, h⟩ := except_bind_eq_ok.mp h
      obtain ⟨shape, hshape, h⟩ := except_bind_eq_ok.mp h
      obtain ⟨⟨w, run'⟩, hemit, h⟩ := except_bind_eq_ok.mp h
      refine ⟨k, ⟨element, shape⟩, ⟨hk, declared, arg, hdeclared, harg, helement, hshape⟩,
        checkPlace_eq_ok.mp hfree, ?_⟩
      obtain ⟨rfl, rfl⟩ := Prod.mk.inj (Except.ok.inj hemit)
      exact (Except.ok.inj h).symm
  · rintro ⟨k, type, ⟨hk, declared, arg, hdeclared, harg, helement, hshape⟩, hfree, rfl⟩
    refine except_bind_eq_ok.mpr ⟨declared, hdeclared, except_bind_eq_ok.mpr ⟨k, hk, ?_⟩⟩
    refine except_bind_eq_ok.mpr ⟨(), checkPlace_eq_ok.mpr hfree, ?_⟩
    simp only [harg]
    refine except_bind_eq_ok.mpr ⟨_, helement, except_bind_eq_ok.mpr ⟨_, hshape, ?_⟩⟩
    rfl

theorem lowerOp_eq_ok {statics : List (Option Tensor)} {run next : Run} :
    lowerOp g statics run i = .ok next ↔
      ∃ kind ws outputs target, OpKind.ofName? v.op = some kind ∧
        (kind.operandSlots.of v).mapM (resolveInput g run.outputs v) = .ok ws ∧
        v.outputs * slotBytes < signedLimit ∧
        kind.rule ⟨v, g, statics⟩ ws run.target = .ok outputs target ∧
        next = run.extend target v.name outputs := by
  rw [lowerOp, Graph.node_of_some hv, except_ok_bind]
  constructor
  · intro h
    split at h
    · cases h
    case h_2 kind hkind =>
      obtain ⟨ws, hws, h⟩ := except_bind_eq_ok.mp h
      obtain ⟨_, hroom, h⟩ := except_bind_eq_ok.mp h
      obtain ⟨⟨outputs, run'⟩, hemit, h⟩ := except_bind_eq_ok.mp h
      unfold Run.emitting at hemit
      split at hemit
      case h_1 outputs' target hrule =>
        obtain ⟨rfl, rfl⟩ := Prod.mk.inj (Except.ok.inj hemit)
        exact ⟨kind, ws, outputs', target, hkind, hws, needRoom_eq_ok.mp hroom, hrule,
          (Except.ok.inj h).symm⟩
      case h_2 => simp at hemit
  · rintro ⟨kind, ws, outputs, target, hkind, hws, hroom, hrule, rfl⟩
    simp only [hkind]
    refine except_bind_eq_ok.mpr ⟨ws, hws, ?_⟩
    refine except_bind_eq_ok.mpr ⟨(), needRoom_eq_ok.mpr hroom, ?_⟩
    rw [Run.emitting, hrule]
    rfl

theorem addResult_eq_ok {outputs : OutputMap} {slots next : List (Option Wire)} :
    addResult g outputs slots i = .ok next ↔
      ∃ k w, v.inputs = 1 ∧ position v = .ok k ∧ slots[k]? = some none ∧
        resolveInput g outputs v 0 = .ok w ∧ next = slots.set k (some w) := by
  rw [addResult, Graph.node_of_some hv, except_ok_bind]
  constructor
  · intro h
    split at h
    · cases h
    case isFalse hinputs =>
      obtain ⟨k, hk, h⟩ := except_bind_eq_ok.mp h
      obtain ⟨_, hfree, h⟩ := except_bind_eq_ok.mp h
      obtain ⟨w, hw, h⟩ := except_bind_eq_ok.mp h
      exact ⟨k, w, not_not.mp hinputs, hk, checkPlace_eq_ok.mp hfree, hw, (Except.ok.inj h).symm⟩
  · rintro ⟨k, w, hinputs, hk, hfree, hw, rfl⟩
    rw [if_neg (not_not.mpr hinputs)]
    refine except_bind_eq_ok.mpr ⟨k, hk, ?_⟩
    exact except_bind_eq_ok.mpr
      ⟨(), checkPlace_eq_ok.mpr hfree, except_bind_eq_ok.mpr ⟨w, hw, rfl⟩⟩

end Steps

/-! ### Rules on one arena -/

/-- A property of arenas that appending a node keeps. -/
def KeptByAppend (P : Target.Graph → Prop) : Prop :=
  ∀ g op ws operands type, P g → g.types ws = .ok operands → Fitting op operands type →
    P (g.push op ws type)

theorem keptByAppend_true : KeptByAppend fun _ => True := fun _ _ _ _ _ _ _ _ => trivial

/-- Two runs on the same arena, with a property that appending keeps. -/
def Simulation.keeping {P : Target.Graph → Prop} (hkept : KeptByAppend P) : Simulation where
  arenas g g' := g = g' ∧ P g
  wires g g' w w' := w = w' ∧ ∃ type, g.type? w = some type ∧ g'.type? w' = some type
  wires_mono := by
    rintro g g' h h' w w' hle hle' ⟨hw, type, ht, ht'⟩
    exact ⟨hw, type, Graph.type?_mono hle ht, Graph.type?_mono hle' ht'⟩
  wires_type := And.right
  append := by
    rintro g g' op ws ws' operands type ⟨rfl, hP⟩ hws htypes _ hfits
    have hsame : ws = ws' := by
      refine List.forall₂_eq_eq_eq ▸ hws.imp ?_
      exact fun w w' hw => hw.1
    subst hsame
    exact ⟨⟨rfl, hkept g op ws operands type hP htypes hfits⟩, rfl, type,
      Graph.type?_push_self .., Graph.type?_push_self ..⟩

/-- A wire of the arena. -/
def Target.Graph.Has (g : Target.Graph) (w : Wire) : Prop := ∃ type, g.type? w = some type

theorem Target.Graph.Has.mono {g h : Target.Graph} {w : Wire} (hle : g ≤ h) (hw : g.Has w) :
    h.Has w := by
  obtain ⟨type, ht⟩ := hw
  exact ⟨type, Graph.type?_mono hle ht⟩

theorem Context.Agree.refl (ctx : Context) (slots : Nat → Prop) : ctx.Agree slots ctx where
  attr _ := rfl
  outputs := rfl
  inputs := rfl
  static _ _ := Paired.refl fun _ _ => trivial

section Rules

variable {kind : OpKind} {ctx : Context} {ws : List Wire} {g : Target.Graph}
  (hws : ∀ w ∈ ws, g.Has w) (hlength : ws.length = (kind.operandSlots.of ctx.node).length)
include hws hlength

/-- A rule on one arena, in two contexts that agree. -/
theorem OpKind.rule_twin_same {ctx' : Context}
    (agree : ctx.Agree (kind.staticSlots.contains ctx.node ·) ctx') {P : Target.Graph → Prop}
    (hkept : KeptByAppend P) (hP : P g) :
    Twin (Simulation.keeping hkept) (ctx.Fails (kind.staticSlots.contains ctx.node ·) ctx') g g
      (OutputsAlike (Simulation.keeping hkept)) (kind.rule ctx ws g) (kind.rule ctx' ws g) := by
  refine kind.rule_twin agree ⟨rfl, hP⟩ (List.forall₂_same.mpr ?_) hlength
  intro w hw
  obtain ⟨type, ht⟩ := hws w hw
  exact ⟨rfl, type, ht, ht⟩

theorem OpKind.rule_twin_self {P : Target.Graph → Prop} (hkept : KeptByAppend P) (hP : P g) :
    Twin (Simulation.keeping hkept) (ctx.Fails (kind.staticSlots.contains ctx.node ·) ctx) g g
      (OutputsAlike (Simulation.keeping hkept)) (kind.rule ctx ws g) (kind.rule ctx ws g) :=
  OpKind.rule_twin_same hws hlength (Context.Agree.refl ctx _) hkept hP

/-- A rule that succeeds has only appended, and its outputs are wires of the arena. -/
theorem OpKind.rule_ok {P : Target.Graph → Prop} (hkept : KeptByAppend P) (hP : P g)
    {outputs : Outputs} {h : Target.Graph} (hrule : kind.rule ctx ws g = .ok outputs h) :
    g ≤ h ∧ P h ∧ ∀ w, some w ∈ outputs → h.Has w := by
  have htwin := OpKind.rule_twin_self hws hlength hkept hP
  rw [hrule] at htwin
  cases htwin with
  | ok hle _ harenas hpost =>
    refine ⟨hle, harenas.2, fun w hw => ?_⟩
    obtain ⟨other, -, hrel⟩ := forall₂_exists_right hpost hw
    cases hrel with
    | some hwires =>
      obtain ⟨-, type, ht, -⟩ := hwires
      exact ⟨type, ht⟩

/-- A rule fails in one of the ways in which rules fail. -/
theorem OpKind.rule_error {e : Error} {h : Target.Graph}
    (hrule : kind.rule ctx ws g = .error e h) :
    ctx.Fails (kind.staticSlots.contains ctx.node ·) ctx e e := by
  have htwin := OpKind.rule_twin_self hws hlength keptByAppend_true trivial
  rw [hrule] at htwin
  cases htwin with
  | error _ _ _ hfails => exact hfails

end Rules

/-! ### What a run keeps -/

instance : LE Run := ⟨fun run run' => run.target ≤ run'.target ∧
  ∀ name outputs, run.outputs.get? name = some outputs → run'.outputs.get? name = some outputs⟩

instance : Preorder Run where
  le_refl _ := ⟨le_rfl, fun _ _ h => h⟩
  le_trans _ _ _ h h' :=
    ⟨h.1.trans h'.1, fun name outputs hget => h'.2 name outputs (h.2 name outputs hget)⟩

/-- The outputs that a run keeps are those of the nodes `done`, and are wires of its arena. -/
structure Covers (g : Source.Graph) (done : List Nat) (run : Run) : Prop where
  kept : ∀ i ∈ done, ∀ v, g.node? i = some v → ∃ outputs, run.outputs.get? v.name = some outputs
  origin : ∀ name outputs, run.outputs.get? name = some outputs →
    ∃ i ∈ done, ∃ v, g.node? i = some v ∧ v.name = name
  wires : ∀ name outputs, run.outputs.get? name = some outputs →
    ∀ w, some w ∈ outputs → run.target.Has w

namespace Covers

variable {g : Source.Graph} {done : List Nat} {run : Run}

theorem empty (g : Source.Graph) : Covers g [] {} where
  kept := by simp
  origin := by simp
  wires := by simp

section Extend

variable (wf : g.WellFormed) (h : Covers g done run) {i : Nat} {v : Source.Node}
  (hv : g.node? i = some v) (hnew : i ∉ done) {target : Target.Graph}
  (hle : run.target ≤ target)
include wf h hv hnew

/-- Names are unique, so nothing has been kept for a node that comes next. -/
theorem get?_eq_none : run.outputs.get? v.name = none := by
  rw [Option.eq_none_iff_forall_not_mem]
  intro outputs hget
  obtain ⟨j, hj, u, hu, hname⟩ := h.origin v.name outputs hget
  rw [wf.name_inj hu hv hname] at hj
  exact hnew hj

include hle

theorem le_extend (outputs : Outputs) : run ≤ run.extend target v.name outputs := by
  refine ⟨hle, fun name outputs' hget => ?_⟩
  have hne : name ≠ v.name := by
    rintro rfl
    rw [h.get?_eq_none wf hv hnew] at hget
    simp at hget
  rw [Run.get?_extend, if_neg hne]
  exact hget

theorem extend {outputs : Outputs} (hwires : ∀ w, some w ∈ outputs → target.Has w) :
    Covers g (done ++ [i]) (run.extend target v.name outputs) where
  kept := by
    intro j hj u hu
    obtain hj | rfl := (List.mem_append.mp hj).imp_right List.mem_singleton.mp
    · obtain ⟨outputs', hget⟩ := h.kept j hj u hu
      exact ⟨outputs', (h.le_extend wf hv hnew hle outputs).2 _ _ hget⟩
    · obtain rfl : u = v := Option.some.inj (hu.symm.trans hv)
      exact ⟨outputs, run.get?_extend_self target u.name outputs⟩
  origin := by
    intro name outputs' hget
    rw [Run.get?_extend] at hget
    split at hget
    case isTrue hname => exact ⟨i, by simp, v, hv, hname.symm⟩
    case isFalse =>
      obtain ⟨j, hj, u, hu, hname⟩ := h.origin name outputs' hget
      exact ⟨j, List.mem_append_left _ hj, u, hu, hname⟩
  wires := by
    intro name outputs' hget w hw
    rw [Run.get?_extend] at hget
    split at hget
    case isTrue =>
      obtain rfl := Option.some.inj hget
      exact hwires w hw
    case isFalse => exact (h.wires name outputs' hget w hw).mono hle

end Extend

/-- A wire that is found behind an input slot is in the arena. -/
theorem has_of_resolveInput (wf : g.WellFormed) (h : Covers g done run) {i slot : Nat}
    {v : Source.Node} (hv : g.node? i = some v) {w : Wire}
    (hw : resolveInput g run.outputs v slot = .ok w) : run.target.Has w := by
  obtain ⟨j, output, producer, wires, -, -, hget, hjoin⟩ := (resolveInput_eq_ok wf hv).mp hw
  exact h.wires _ _ hget w (List.mem_of_getElem? (Option.join_eq_some_iff.mp hjoin))

theorem has_of_mapM (wf : g.WellFormed) (h : Covers g done run) {i : Nat} {slots : List Nat}
    {v : Source.Node} (hv : g.node? i = some v) {ws : List Wire}
    (hws : slots.mapM (resolveInput g run.outputs v) = .ok ws) (w : Wire) (hw : w ∈ ws) :
    run.target.Has w := by
  obtain ⟨slot, -, hslot⟩ := forall₂_exists_left (except_mapM_eq_ok.mp hws) hw
  exact h.has_of_resolveInput wf hv hslot

end Covers

/-! ### The parameters -/

/-- A parameter has been made for the argument node at place `i`. -/
def Entered (g : Source.Graph) (args : List Argument) (run : Run) (slots : List (Option Wire))
    (i : Nat) : Prop :=
  ∃ v k type w, g.node? i = some v ∧ Supplied args v k type ∧ slots[k]? = some (some w) ∧
    run.target.nodes[w]? = some ⟨w, .parameter k, [], type⟩ ∧
    run.outputs.get? v.name = some [some w]

/-- The parameters have been made for the argument nodes `done`, and nothing else. -/
structure ParamsDone (g : Source.Graph) (args : List Argument) (n : Nat) (done : List Nat)
    (run : Run) (slots : List (Option Wire)) : Prop where
  covers : Covers g done run
  filling : Filling g.position? done slots
  length : slots.length = n
  entered : ∀ i ∈ done, Entered g args run slots i
  origin : ∀ (w : Wire) (u : Target.Node), run.target.nodes[w]? = some u →
    ∃ k, slots[k]? = some (some w) ∧ u.op = .parameter k

section Params

variable {g : Source.Graph} (wf : g.WellFormed) {args : List Argument} {n : Nat} {run : Run}
  {slots : List (Option Wire)}

theorem ParamsDone.empty (g : Source.Graph) (args : List Argument) (n : Nat) :
    ParamsDone g args n [] {} (List.replicate n none) where
  covers := Covers.empty g
  filling := Filling.empty _ n
  length := List.length_replicate
  entered := by simp
  origin := by simp

include wf

theorem ParamsDone.step {done : List Nat} (h : ParamsDone g args n done run slots) {i k : Nat}
    {v : Source.Node} {type : TensorType} (hv : g.node? i = some v) (hnew : i ∉ done)
    (hsupplied : Supplied args v k type) (hfree : slots[k]? = some none) :
    ParamsDone g args n (done ++ [i])
      (run.extend (run.target.push (.parameter k) [] type) v.name [some run.target.size])
      (slots.set k (some run.target.size)) := by
  have hle : run.target ≤ run.target.push (.parameter k) [] type := Graph.le_push _ _ _ _
  have hself := Graph.node_push_self run.target (.parameter k) [] type
  have hmono := h.covers.le_extend wf hv hnew hle [some run.target.size]
  refine ⟨?_, ?_, ?_, ?_, ?_⟩
  · refine h.covers.extend wf hv hnew hle fun w hw => ?_
    obtain rfl : w = run.target.size := by simpa using hw
    exact ⟨type, Graph.type?_push_self ..⟩
  · exact h.filling.set (Graph.position?_of_ok hv hsupplied.1) hfree
  · rw [List.length_set, h.length]
  · intro j hj
    obtain hj | rfl := (List.mem_append.mp hj).imp_right List.mem_singleton.mp
    · obtain ⟨u, k', type', w, hu, hs, hslot, hnode, hget⟩ := h.entered j hj
      exact ⟨u, k', type', w, hu, hs, Filling.getElem?_set_of_filled hfree hslot, hle w _ hnode,
        hmono.2 _ _ hget⟩
    · exact ⟨v, k, type, run.target.size, hv, hsupplied, Filling.getElem?_set_free hfree, hself,
        run.get?_extend_self _ v.name _⟩
  · intro w u hu
    change (run.target.push (.parameter k) [] type).nodes[w]? = some u at hu
    rw [Graph.push, Array.getElem?_push] at hu
    split at hu
    -- the node just appended is the one that was put at position `k`
    case isTrue hw =>
      obtain rfl := Option.some.inj hu
      obtain rfl : w = run.target.size := hw
      exact ⟨k, Filling.getElem?_set_free hfree, rfl⟩
    case isFalse =>
      obtain ⟨k', hslot, hop⟩ := h.origin w u hu
      exact ⟨k', Filling.getElem?_set_of_filled hfree hslot, hop⟩

theorem params_spec {l : List Nat} (hnodes : ∀ i ∈ l, ∃ v, g.node? i = some v) (hnodup : l.Nodup)
    {s : Run × List (Option Wire)}
    (h : l.foldlM (addParameter g args) ({}, List.replicate n none) = .ok s) :
    ParamsDone g args n l s.1 s.2 := by
  refine foldlM_ok_induct (fun done s => ParamsDone g args n done s.1 s.2)
    (ParamsDone.empty g args n) ?_ h
  rintro done i rest ⟨run, slots⟩ s' rfl hinv hstep
  obtain ⟨v, hv⟩ := hnodes i (by simp)
  obtain ⟨k, type, hsupplied, hfree, rfl⟩ := (addParameter_eq_ok hv).mp hstep
  exact hinv.step wf hv (not_mem_front hnodup rfl) hsupplied hfree

end Params

/-! ### The ops -/

/-- The op node at place `i` has been lowered: there was room for its outputs, its rule ran on wires
that the run keeps for its inputs, in an earlier arena, and the run keeps what the rule gave. -/
def Lowered (g : Source.Graph) (statics : List (Option Tensor)) (run : Run) (i : Nat) : Prop :=
  ∃ v kind ws outputs before after, g.node? i = some v ∧ OpKind.ofName? v.op = some kind ∧
    (kind.operandSlots.of v).mapM (resolveInput g run.outputs v) = .ok ws ∧
    v.outputs * slotBytes < signedLimit ∧ (∀ w ∈ ws, before.Has w) ∧
    kind.rule ⟨v, g, statics⟩ ws before = .ok outputs after ∧ before ≤ after ∧
    after ≤ run.target ∧ run.outputs.get? v.name = some outputs

/-- A node is a parameter of the arena. -/
def Target.Graph.IsParameter (g : Target.Graph) (w : Wire) (k : Nat) (u : Target.Node) : Prop :=
  g.nodes[w]? = some u ∧ u.op = .parameter k

/-- The ops `done` have been lowered, behind the parameters. -/
structure OpsDone (g : Source.Graph) (statics : List (Option Tensor)) (params : List Nat)
    (start : Run) (done : List Nat) (run : Run) : Prop where
  covers : Covers g (params ++ done) run
  le : start ≤ run
  lowered : ∀ i ∈ done, Lowered g statics run i
  parameters : ∀ w k u, run.target.IsParameter w k u → start.target.IsParameter w k u

/-- Rules append no parameter: it is neither a constant nor an op whose type is inferred. -/
theorem Fitting.not_parameter {op : Op} {operands : List TensorType} {type : TensorType}
    (h : Fitting op operands type) (k : Nat) : op ≠ .parameter k := by
  rintro rfl
  cases h with
  | constant value hop _ _ => cases hop
  | inferred h => cases h

/-- All parameters of an arena stand in an earlier one. -/
theorem keptByAppend_parameters (start : Target.Graph) :
    KeptByAppend fun g => ∀ w k u, g.IsParameter w k u → start.IsParameter w k u := by
  rintro g op ws operands type hP - hfits w k u ⟨hu, hop⟩
  rw [Graph.push, Array.getElem?_push] at hu
  split at hu
  · obtain rfl := Option.some.inj hu
    exact absurd hop (hfits.not_parameter k)
  · exact hP w k u ⟨hu, hop⟩

section Ops

variable {g : Source.Graph} (wf : g.WellFormed) {statics : List (Option Tensor)} {run : Run}

theorem OpsDone.empty {params : List Nat} {start : Run} (h : Covers g params start) :
    OpsDone g statics params start [] start where
  covers := by rwa [List.append_nil]
  le := le_rfl
  lowered := by simp
  parameters _ _ _ hu := hu

include wf

theorem resolveInput_mono {run' : Run} (hle : run ≤ run') {i slot : Nat} {v : Source.Node}
    (hv : g.node? i = some v) {w : Wire} (h : resolveInput g run.outputs v slot = .ok w) :
    resolveInput g run'.outputs v slot = .ok w := by
  obtain ⟨j, output, producer, wires, hcarries, hp, hget, hw⟩ := (resolveInput_eq_ok wf hv).mp h
  exact (resolveInput_eq_ok wf hv).mpr
    ⟨j, output, producer, wires, hcarries, hp, hle.2 _ _ hget, hw⟩

theorem mapM_resolveInput_mono {run' : Run} (hle : run ≤ run') {i : Nat} {slots : List Nat}
    {v : Source.Node} (hv : g.node? i = some v) {ws : List Wire}
    (h : slots.mapM (resolveInput g run.outputs v) = .ok ws) :
    slots.mapM (resolveInput g run'.outputs v) = .ok ws := by
  refine except_mapM_eq_ok.mpr ((except_mapM_eq_ok.mp h).imp fun slot w hw => ?_)
  exact resolveInput_mono wf hle hv hw

theorem Lowered.mono {run' : Run} (hle : run ≤ run') {i : Nat} (h : Lowered g statics run i) :
    Lowered g statics run' i := by
  obtain ⟨v, kind, ws, outputs, before, after, hv, hkind, hws, hroom, hhas, hrule, hba, hle',
    hget⟩ := h
  exact ⟨v, kind, ws, outputs, before, after, hv, hkind, mapM_resolveInput_mono wf hle hv hws,
    hroom, hhas, hrule, hba, hle'.trans hle.1, hle.2 _ _ hget⟩

theorem OpsDone.step {params done : List Nat} {start : Run}
    (h : OpsDone g statics params start done run) {i : Nat} {v : Source.Node}
    (hv : g.node? i = some v) (hnew : i ∉ params ++ done) {kind : OpKind} {ws : List Wire}
    {outputs : Outputs} {target : Target.Graph} (hkind : OpKind.ofName? v.op = some kind)
    (hws : (kind.operandSlots.of v).mapM (resolveInput g run.outputs v) = .ok ws)
    (hroom : v.outputs * slotBytes < signedLimit)
    (hrule : kind.rule ⟨v, g, statics⟩ ws run.target = .ok outputs target) :
    OpsDone g statics params start (done ++ [i]) (run.extend target v.name outputs) := by
  have hhas := h.covers.has_of_mapM wf hv hws
  have hlength := (except_mapM_eq_ok.mp hws).length_eq.symm
  obtain ⟨hle, hparameters, hwires⟩ :=
    OpKind.rule_ok hhas hlength (keptByAppend_parameters start.target) h.parameters hrule
  have hmono := h.covers.le_extend wf hv hnew hle outputs
  refine ⟨?_, h.le.trans hmono, ?_, hparameters⟩
  · rw [← List.append_assoc]
    exact h.covers.extend wf hv hnew hle hwires
  · intro j hj
    obtain hj | rfl := (List.mem_append.mp hj).imp_right List.mem_singleton.mp
    -- an earlier op stays lowered, since the run has only grown
    · exact (h.lowered j hj).mono wf hmono
    · exact ⟨v, kind, ws, outputs, run.target, target, hv, hkind,
        mapM_resolveInput_mono wf hmono hv hws, hroom, hhas, hrule, hle, le_rfl,
        run.get?_extend_self target v.name outputs⟩

theorem ops_spec {params l : List Nat} {start : Run} (hstart : Covers g params start)
    (hnodes : ∀ i ∈ l, ∃ v, g.node? i = some v) (hnodup : (params ++ l).Nodup)
    (h : l.foldlM (lowerOp g statics) start = .ok run) :
    OpsDone g statics params start l run := by
  refine foldlM_ok_induct (OpsDone g statics params start) (OpsDone.empty hstart) ?_ h
  rintro done i rest run run' rfl hinv hstep
  obtain ⟨v, hv⟩ := hnodes i (by simp)
  obtain ⟨kind, ws, outputs, target, hkind, hws, hroom, hrule, rfl⟩ := (lowerOp_eq_ok hv).mp hstep
  have hnew : i ∉ params ++ done := not_mem_front hnodup (List.append_assoc _ _ _).symm
  exact hinv.step wf hv hnew hkind hws hroom hrule

end Ops

/-! ### The results -/

/-- The wire of the return node at place `i` is at its position. -/
def Returned (g : Source.Graph) (outputs : OutputMap) (slots : List (Option Wire)) (i : Nat) :
    Prop :=
  ∃ v k w, g.node? i = some v ∧ v.inputs = 1 ∧ position v = .ok k ∧
    resolveInput g outputs v 0 = .ok w ∧ slots[k]? = some (some w)

/-- The wires of the return nodes `done` have been collected. -/
structure ResultsDone (g : Source.Graph) (outputs : OutputMap) (m : Nat) (done : List Nat)
    (slots : List (Option Wire)) : Prop where
  filling : Filling g.position? done slots
  length : slots.length = m
  returned : ∀ i ∈ done, Returned g outputs slots i

section Results

variable {g : Source.Graph} {outputs : OutputMap} {m : Nat} {slots : List (Option Wire)}

theorem ResultsDone.empty (g : Source.Graph) (outputs : OutputMap) (m : Nat) :
    ResultsDone g outputs m [] (List.replicate m none) where
  filling := Filling.empty _ m
  length := List.length_replicate
  returned := by simp

theorem ResultsDone.step {done : List Nat} (h : ResultsDone g outputs m done slots) {i k : Nat}
    {v : Source.Node} {w : Wire} (hv : g.node? i = some v) (hinputs : v.inputs = 1)
    (hk : position v = .ok k) (hfree : slots[k]? = some none)
    (hw : resolveInput g outputs v 0 = .ok w) :
    ResultsDone g outputs m (done ++ [i]) (slots.set k (some w)) := by
  refine ⟨h.filling.set (Graph.position?_of_ok hv hk) hfree, ?_, ?_⟩
  · rw [List.length_set, h.length]
  · intro j hj
    obtain hj | rfl := (List.mem_append.mp hj).imp_right List.mem_singleton.mp
    · obtain ⟨u, k', w', hu, hone, hk', hw', hslot⟩ := h.returned j hj
      exact ⟨u, k', w', hu, hone, hk', hw', Filling.getElem?_set_of_filled hfree hslot⟩
    · exact ⟨v, k, w, hv, hinputs, hk, hw, Filling.getElem?_set_free hfree⟩

theorem results_spec {l : List Nat} (hnodes : ∀ i ∈ l, ∃ v, g.node? i = some v)
    (h : l.foldlM (addResult g outputs) (List.replicate m none) = .ok slots) :
    ResultsDone g outputs m l slots := by
  refine foldlM_ok_induct (ResultsDone g outputs m) (ResultsDone.empty g outputs m) ?_ h
  rintro done i rest slots slots' rfl hinv hstep
  obtain ⟨v, hv⟩ := hnodes i (by simp)
  obtain ⟨k, w, hinputs, hk, hfree, hw, rfl⟩ := (addResult_eq_ok hv).mp hstep
  exact hinv.step hv hinputs hk hfree hw

end Results

/-! ### Whole runs -/

/-- A run up to its last op, with the list of its parameters. -/
def Compiled.runOps (c : Compiled) (args : List Argument) :
    Except Error (Run × List (Option Wire)) := do
  let (run, parameters) ← c.parts.params.foldlM (addParameter c.graph args)
    ({}, List.replicate c.parts.params.length none)
  let run ← c.parts.ops.foldlM (lowerOp c.graph (c.statics args)) run
  return (run, parameters)

/-- A run meets the op node at place `i` in state `run`: the parameters have been made and the ops
before it lowered. -/
def Compiled.Meets (c : Compiled) (args : List Argument) (i : Nat) (run : Run) : Prop :=
  ∃ done rest start slots, c.parts.ops = done ++ i :: rest ∧
    c.parts.params.foldlM (addParameter c.graph args)
      ({}, List.replicate c.parts.params.length none) = .ok (start, slots) ∧
    done.foldlM (lowerOp c.graph (c.statics args)) start = .ok run

namespace Compiled

variable {c : Compiled} {args : List Argument}

/-- A run collects its results from what it keeps behind its last op. -/
theorem lower_eq_runOps (c : Compiled) (args : List Argument) :
    c.lower args = c.runOps args >>= fun (run, parameters) => do
      let results ← c.parts.returns.foldlM (addResult c.graph run.outputs)
        (List.replicate c.parts.returns.length none)
      return ⟨run.target, parameters.filterMap id, results.filterMap id⟩ := by
  simp only [lower, runOps, bind_assoc, pure_bind]

theorem runOps_eq_ok {s : Run × List (Option Wire)} :
    c.runOps args = .ok s ↔ ∃ start,
      c.parts.params.foldlM (addParameter c.graph args)
        ({}, List.replicate c.parts.params.length none) = .ok (start, s.2) ∧
      c.parts.ops.foldlM (lowerOp c.graph (c.statics args)) start = .ok s.1 := by
  rw [runOps]
  constructor
  · intro h
    obtain ⟨⟨start, parameters⟩, hparams, h⟩ := except_bind_eq_ok.mp h
    obtain ⟨run, hops, h⟩ := except_bind_eq_ok.mp h
    obtain rfl := Except.ok.inj h
    exact ⟨start, hparams, hops⟩
  · rintro ⟨start, hparams, hops⟩
    exact except_bind_eq_ok.mpr ⟨_, hparams, except_bind_eq_ok.mpr ⟨s.1, hops, rfl⟩⟩

theorem lower_eq_ok {f : Function} :
    c.lower args = .ok f ↔ ∃ run parameters results, c.runOps args = .ok (run, parameters) ∧
      c.parts.returns.foldlM (addResult c.graph run.outputs)
        (List.replicate c.parts.returns.length none) = .ok results ∧
      f = ⟨run.target, parameters.filterMap id, results.filterMap id⟩ := by
  rw [lower_eq_runOps]
  constructor
  · intro h
    obtain ⟨⟨run, parameters⟩, hrun, h⟩ := except_bind_eq_ok.mp h
    obtain ⟨results, hresults, h⟩ := except_bind_eq_ok.mp h
    exact ⟨run, parameters, results, hrun, hresults, (Except.ok.inj h).symm⟩
  · rintro ⟨run, parameters, results, hrun, hresults, rfl⟩
    exact except_bind_eq_ok.mpr ⟨_, hrun, except_bind_eq_ok.mpr ⟨results, hresults, rfl⟩⟩

namespace Prepared

variable (hc : c.Prepared)
include hc

theorem node?_of_mem_params {i : Nat} (hi : i ∈ c.parts.params) :
    ∃ v, c.graph.node? i = some v := by
  obtain ⟨v, hv, -⟩ := Graph.is_iff.mp (hc.mem_params.mp hi)
  exact ⟨v, hv⟩

theorem node?_of_mem_ops {i : Nat} (hi : i ∈ c.parts.ops) : ∃ v, c.graph.node? i = some v := by
  obtain ⟨v, hv, -⟩ := Graph.is_iff.mp (hc.mem_ops.mp hi)
  exact ⟨v, hv⟩

theorem node?_of_mem_returns {i : Nat} (hi : i ∈ c.parts.returns) :
    ∃ v, c.graph.node? i = some v := by
  obtain ⟨v, hv, -⟩ := Graph.is_iff.mp (hc.mem_returns.mp hi)
  exact ⟨v, hv⟩

/-- No node is both an argument and an op. -/
theorem nodup_append : (c.parts.params ++ c.parts.ops).Nodup := by
  refine List.nodup_append.mpr ⟨hc.params_nodup, hc.ops_nodup, ?_⟩
  rintro i hparam j hop rfl
  obtain ⟨v, hv, harg⟩ := Graph.is_iff.mp (hc.mem_params.mp hparam)
  obtain ⟨u, hu, hordinary⟩ := Graph.is_iff.mp (hc.mem_ops.mp hop)
  obtain rfl : v = u := Option.some.inj (hv.symm.trans hu)
  exact (Node.isOrdinary_iff.mp hordinary).2.1 harg

theorem params_done {s : Run × List (Option Wire)}
    (h : c.parts.params.foldlM (addParameter c.graph args)
      ({}, List.replicate c.parts.params.length none) = .ok s) :
    ParamsDone c.graph args c.parts.params.length c.parts.params s.1 s.2 :=
  params_spec hc.wf (fun _ hi => hc.node?_of_mem_params hi) hc.params_nodup h

/-- The state of a run behind some of the ops, in the order of the graph. -/
theorem ops_done {start run : Run} (hstart : Covers c.graph c.parts.params start)
    {done rest : List Nat} (hsplit : c.parts.ops = done ++ rest)
    {statics : List (Option Tensor)}
    (h : done.foldlM (lowerOp c.graph statics) start = .ok run) :
    OpsDone c.graph statics c.parts.params start done run := by
  have hnodup := hc.nodup_append
  rw [hsplit, ← List.append_assoc] at hnodup
  refine ops_spec hc.wf hstart (fun i hi => ?_) (List.nodup_append.mp hnodup).1 h
  exact hc.node?_of_mem_ops (by rw [hsplit]; exact List.mem_append_left _ hi)

theorem meets_spec {i : Nat} {run : Run} (h : c.Meets args i run) :
    ∃ done rest start slots, c.parts.ops = done ++ i :: rest ∧
      ParamsDone c.graph args c.parts.params.length c.parts.params start slots ∧
      OpsDone c.graph (c.statics args) c.parts.params start done run := by
  obtain ⟨done, rest, start, slots, hsplit, hparams, hops⟩ := h
  have hstart := hc.params_done hparams
  exact ⟨done, rest, start, slots, hsplit, hstart, hc.ops_done hstart.covers hsplit hops⟩

theorem results_done {outputs : OutputMap} {slots : List (Option Wire)}
    (h : c.parts.returns.foldlM (addResult c.graph outputs)
      (List.replicate c.parts.returns.length none) = .ok slots) :
    ResultsDone c.graph outputs c.parts.returns.length c.parts.returns slots :=
  results_spec (fun _ hi => hc.node?_of_mem_returns hi) h

/-- A run that succeeds has made all parameters, lowered all ops and collected all results. -/
theorem lower_spec {f : Function} (h : c.lower args = .ok f) :
    ∃ start run parameters results, c.runOps args = .ok (run, parameters) ∧
      ParamsDone c.graph args c.parts.params.length c.parts.params start parameters ∧
      OpsDone c.graph (c.statics args) c.parts.params start c.parts.ops run ∧
      ResultsDone c.graph run.outputs c.parts.returns.length c.parts.returns results ∧
      f = ⟨run.target, parameters.filterMap id, results.filterMap id⟩ := by
  obtain ⟨run, parameters, results, hrun, hresults, hf⟩ := lower_eq_ok.mp h
  obtain ⟨start, hparams, hops⟩ := runOps_eq_ok.mp hrun
  have hstart := hc.params_done hparams
  exact ⟨start, run, parameters, results, hrun, hstart,
    hc.ops_done hstart.covers (List.append_nil _).symm hops, hc.results_done hresults, hf⟩

end Prepared

end Compiled

end GraphLowering
