import Mathlib
import GraphLowering.Proofs.RuleOutcome

/-!
# The outputs that a run keeps

When an op has been lowered, the run keeps one slot for each output that its node declares. A split
fills all of them and a node that only orders others fills none; any other op fills its first slot,
and so its node declares one. What has been kept stays as it is while the run goes on.

* `Compiled.Reaches` — the states of a run between two ops.
* `Compiled.Prepared.le_of_reaches` — a run only adds to what it keeps.
* `SlotsFilled` — the slots that are kept for a node.
* `lowered_slots_filled_and_kept` — what holds of them from the op on.
-/

namespace GraphLowering

open Source Target

/-! ### States between two ops -/

/-- A run that has made the parameters and lowered the ops `done`, the first ones in the order of the
graph, stands in state `run`. -/
def Compiled.Reaches (c : Compiled) (args : List Argument) (done : List Nat) (run : Run) : Prop :=
  ∃ rest start slots, c.parts.ops = done ++ rest ∧
    c.parts.params.foldlM (addParameter c.graph args)
      ({}, List.replicate c.parts.params.length none) = .ok (start, slots) ∧
    done.foldlM (lowerOp c.graph (c.statics args)) start = .ok run

namespace Compiled.Prepared

variable {c : Compiled} (hc : c.Prepared) {args : List Argument} {done : List Nat} {run : Run}
include hc

theorem reaches_spec (h : c.Reaches args done run) :
    ∃ start slots, ParamsDone c.graph args c.parts.params.length c.parts.params start slots ∧
      OpsDone c.graph (c.statics args) c.parts.params start done run := by
  obtain ⟨rest, start, slots, hsplit, hparams, hops⟩ := h
  have hstart := hc.params_done hparams
  exact ⟨start, slots, hstart, hc.ops_done hstart.covers hsplit hops⟩

/-- A later state keeps all that an earlier one keeps. -/
theorem le_of_reaches (h : c.Reaches args done run) {more : List Nat} {later : Run}
    (hlater : c.Reaches args (done ++ more) later) : run ≤ later := by
  obtain ⟨start, slots, -, hdone⟩ := hc.reaches_spec h
  obtain ⟨_, start₁, slots₁, -, hparams₁, hops₁⟩ := h
  obtain ⟨rest, start₂, slots₂, hsplit, hparams₂, hops₂⟩ := hlater
  obtain ⟨rfl, rfl⟩ := Prod.mk.inj (Except.ok.inj (hparams₁.symm.trans hparams₂))
  -- both runs go through the same state behind `done`
  rw [List.foldlM_append, hops₁, except_ok_bind] at hops₂
  have hnodup : (c.parts.params ++ done ++ more).Nodup := by
    have hall := hc.nodup_append
    rw [hsplit, ← List.append_assoc, ← List.append_assoc] at hall
    exact (List.nodup_append.mp hall).1
  have hnodes : ∀ i ∈ more, ∃ v, c.graph.node? i = some v :=
    fun i hi => hc.node?_of_mem_ops (by rw [hsplit]; simp [hi])
  exact (ops_spec hc.wf hdone.covers hnodes hnodup hops₂).le

end Compiled.Prepared

/-! ### Filled slots -/

/-- The slots that are kept for a node, over an arena of `size` nodes. -/
structure SlotsFilled (v : Source.Node) (outputs : Outputs) (size : Nat) : Prop where
  count : outputs.length = v.outputs
  split : v.op = "Split" → ∀ slot ∈ outputs, ∃ w, slot = some w
  nothing : v.op = "NoOp" → ∀ slot ∈ outputs, slot = none
  first : v.op ≠ "Split" → v.op ≠ "NoOp" →
    0 < v.outputs ∧ ∃ w, outputs = some w :: List.replicate (v.outputs - 1) none
  wires : ∀ w, some w ∈ outputs → w < size

theorem OpKind.Fills.length_eq {kind : OpKind} {count : Nat} {outputs : Outputs}
    (h : kind.Fills count outputs) : outputs.length = count := by
  have hfirst : FillsFirst count outputs → outputs.length = count := by
    rintro ⟨w, hpos, rfl⟩
    rw [List.length_cons, List.length_replicate]
    omega
  cases kind with
  | split =>
    obtain ⟨wires, rfl, hlength⟩ := h
    rw [List.length_map, hlength]
  | nothing => rw [show outputs = _ from h, List.length_replicate]
  | _ => exact hfirst h

theorem Target.Graph.Has.lt_size {g : Target.Graph} {w : Wire} (h : g.Has w) : w < g.size := by
  obtain ⟨type, ht⟩ := h
  obtain ⟨v, hv, -⟩ := Option.map_eq_some_iff.mp ht
  exact (Array.getElem?_eq_some_iff.mp hv).1

theorem SlotsFilled.of_fills {v : Source.Node} {kind : OpKind} {outputs : Outputs} {size : Nat}
    (hkind : OpKind.ofName? v.op = some kind) (h : kind.Fills v.outputs outputs)
    (hwires : ∀ w, some w ∈ outputs → w < size) : SlotsFilled v outputs size where
  count := h.length_eq
  split := by
    intro hop slot hslot
    rw [hop] at hkind
    obtain rfl : OpKind.split = kind := Option.some.inj hkind
    obtain ⟨wires, rfl, -⟩ := h
    obtain ⟨w, -, rfl⟩ := List.mem_map.mp hslot
    exact ⟨w, rfl⟩
  nothing := by
    intro hop slot hslot
    rw [hop] at hkind
    obtain rfl : OpKind.nothing = kind := Option.some.inj hkind
    rw [show outputs = _ from h] at hslot
    exact List.eq_of_mem_replicate hslot
  first := by
    intro hsplit hnothing
    have hname := OpKind.mem_names_of_ofName? hkind
    have hfirst : FillsFirst v.outputs outputs := by
      cases kind with
      | split => exact absurd (List.mem_singleton.mp hname) hsplit
      | nothing => exact absurd (List.mem_singleton.mp hname) hnothing
      | _ => exact h
    obtain ⟨w, hpos, houtputs⟩ := hfirst
    exact ⟨hpos, w, houtputs⟩
  wires := hwires

/-- The slots of an op that has been lowered are filled as its rule fills them. -/
theorem Lowered.slotsFilled {g : Source.Graph} (wf : g.WellFormed)
    {statics : List (Option Tensor)} {run : Run} {i : Nat} (h : Lowered g statics run i) :
    ∃ v outputs, g.node? i = some v ∧ run.outputs.get? v.name = some outputs ∧
      SlotsFilled v outputs run.target.size := by
  obtain ⟨v, kind, ws, outputs, before, after, hv, hkind, hws, -, hhas, hrule, -, hle, hget⟩ := h
  have hlength := (except_mapM_eq_ok.mp hws).length_eq.symm
  have hends := kind.rule_ends ⟨v, g, statics⟩ wf hv hhas hlength
  obtain ⟨-, -, hwires⟩ := OpKind.rule_ok hhas hlength keptByAppend_true trivial hrule
  rw [hrule] at hends
  cases hends with
  | ok _ hfills =>
    exact ⟨v, outputs, hv, hget,
      .of_fills hkind hfills fun w hw => ((hwires w hw).mono hle).lt_size⟩

/-- **The slots of a lowered op.** In the state behind an op the run keeps as many slots for it as
its node declares, filled as its kind says with wires of the arena. The entries kept before the op
are still there, and in every later state of the run all of them are. -/
theorem lowered_slots_filled_and_kept {g : Source.Graph} {c : Compiled} (hbuilt : g.Built)
    (hprepare : prepare g = .ok c) {args : List Argument} {done : List Nat} {i : Nat} {run : Run}
    (hreaches : c.Reaches args (done ++ [i]) run) :
    (∃ v outputs, g.node? i = some v ∧ run.outputs.get? v.name = some outputs ∧
      SlotsFilled v outputs run.target.size) ∧
    (∀ before, c.Reaches args done before → ∀ name saved,
      before.outputs.get? name = some saved → run.outputs.get? name = some saved) ∧
    ∀ more later, c.Reaches args (done ++ i :: more) later → ∀ name saved,
      run.outputs.get? name = some saved → later.outputs.get? name = some saved := by
  have hc := prepared_of_prepare hbuilt.wellFormed hprepare
  obtain ⟨rfl, -⟩ := prepare_eq_ok hprepare
  refine ⟨?_, ?_, ?_⟩
  · obtain ⟨start, slots, -, hdone⟩ := hc.reaches_spec hreaches
    exact (hdone.lowered i (by simp)).slotsFilled hc.wf
  · intro before hbefore name saved hget
    exact (hc.le_of_reaches hbefore hreaches).2 name saved hget
  · intro more later hlater name saved hget
    rw [List.append_cons] at hlater
    exact (hc.le_of_reaches hreaches hlater).2 name saved hget

/-- A split into two pieces, a node that only orders others but declares two outputs, and an op with
more outputs than it fills. -/
def partedInput : Source.Graph := Graph.build [
  .node { name := "x", op := "_Arg",
          attrs := (NameTable.empty.insert "T" (.type .float)).insert "index" (.int 0) },
  .node { name := "axis", op := "Const",
          attrs := NameTable.empty.insert "value" (.tensor ⟨[], .i64 #[-1], rfl⟩) },
  .node { name := "parts", op := "Split", outputs := 2,
          attrs := NameTable.empty.insert "num_split" (.int 2) },
  .node { name := "mark", op := "NoOp", outputs := 2 },
  .node { name := "last", op := "Neg", outputs := 3 },
  .edge 1 0 2 0, .edge 0 0 2 1, .edge 2 1 4 0, .control 2 3, .control 3 4]

theorem partedInput_slots :
    ∃ c run later v outputs, prepare partedInput = .ok c ∧
      c.Reaches [⟨.float, [4], none⟩] ([1] ++ [2]) run ∧ partedInput.node? 2 = some v ∧
      run.outputs.get? v.name = some outputs ∧ SlotsFilled v outputs run.target.size ∧
      c.Reaches [⟨.float, [4], none⟩] ([1] ++ 2 :: [3, 4]) later ∧
      later.outputs.get? "parts" = some [some 2, some 3] ∧
      later.outputs.get? "mark" = some [none, none] ∧
      later.outputs.get? "last" = some [some 4, none, none] := by
  have hprepare : prepare partedInput =
      .ok ⟨partedInput, ⟨[0], [], [1, 2, 3, 4]⟩, [false]⟩ := by rfl
  have hrun : ∃ run, (⟨partedInput, ⟨[0], [], [1, 2, 3, 4]⟩, [false]⟩ : Compiled).Reaches
      [⟨.float, [4], none⟩] ([1] ++ [2]) run ∧
      run.outputs.get? "parts" = some [some 2, some 3] :=
    ⟨_, ⟨[3, 4], _, _, rfl, rfl, rfl⟩, rfl⟩
  have hlater : ∃ later, (⟨partedInput, ⟨[0], [], [1, 2, 3, 4]⟩, [false]⟩ : Compiled).Reaches
      [⟨.float, [4], none⟩] ([1] ++ 2 :: [3, 4]) later ∧
      later.outputs.get? "mark" = some [none, none] ∧
      later.outputs.get? "last" = some [some 4, none, none] :=
    ⟨_, ⟨[], _, _, rfl, rfl, rfl⟩, rfl, rfl⟩
  obtain ⟨run, hrun, hparts⟩ := hrun
  obtain ⟨later, hlater, hmark, hlast⟩ := hlater
  obtain ⟨⟨v, outputs, hv, hget, hfilled⟩, -, hkept⟩ :=
    lowered_slots_filled_and_kept ⟨_, rfl⟩ hprepare hrun
  exact ⟨_, run, later, v, outputs, hprepare, hrun, hv, hget, hfilled, hlater,
    hkept _ later hlater _ _ hparts, hmark, hlast⟩

end GraphLowering
