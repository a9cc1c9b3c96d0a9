import Mathlib
import GraphLowering.Proofs.Run
import GraphLowering.Proofs.Unfolding

/-!
# Only the flow of data counts

Control edges and the order in which edges were added decide in which order the nodes are lowered,
and so how the arena is numbered. They decide nothing else: two graphs with the same nodes and the
same data edges are prepared alike and give functions with the same expressions.

* `Graph.SameData` — the same nodes and the same data edges.
* `SameData.preparable`, `SameData.statics_eq` — preparing sees no difference.
* `Alike` — what two runs keep for a node unfolds to the same expressions.
* `SameData.resolveInput_alike`, `SameData.lowerOp_alike` — the step: inputs that are alike give
  outputs that are alike.
* `lowering_depends_on_data` — the two graphs give the same expressions.
-/

namespace GraphLowering

open Source Target

/-! ### Graphs with the same data edges -/

namespace Source

/-- The same name, op type, attributes and number of outputs. -/
structure Node.Same (v v' : Node) : Prop where
  name : v.name = v'.name
  op : v.op = v'.op
  outputs : v.outputs = v'.outputs
  attr : ∀ key, v.attr? key = v'.attr? key

/-- The same nodes at the same places, and the same data edges. Control edges and the order of the
edges may differ. -/
structure Graph.SameData (g g' : Graph) : Prop where
  size : g.nodes.size = g'.nodes.size
  same : ∀ i v v', g.node? i = some v → g'.node? i = some v' → v.Same v'
  carries : ∀ j output i slot, g.Carries j output i slot ↔ g'.Carries j output i slot

namespace Node.Same

variable {v v' : Node} (h : v.Same v')
include h

theorem symm : v'.Same v := ⟨h.name.symm, h.op.symm, h.outputs.symm, fun key => (h.attr key).symm⟩

theorem attrOfKind_eq {α : Type} (key expected : String) (read : Attribute → Option α) :
    v.attrOfKind key expected read = v'.attrOfKind key expected read := by
  unfold attrOfKind attrOfKind?
  rw [h.attr key, h.name]

theorem position_eq : position v = position v' := by
  unfold position Node.int
  rw [h.attrOfKind_eq, h.name]

theorem isArgument_eq : v.isArgument = v'.isArgument := by
  rw [isArgument, isArgument, h.op]

theorem isReturn_eq : v.isReturn = v'.isReturn := by
  rw [isReturn, isReturn, h.op]

theorem isSentinel_eq : v.isSentinel = v'.isSentinel := by
  rw [isSentinel, isSentinel, h.op]

theorem isOrdinary_eq : v.isOrdinary = v'.isOrdinary := by
  rw [isOrdinary, isOrdinary, h.isSentinel_eq, h.isArgument_eq, h.isReturn_eq]

theorem isControlFlow_eq : v.isControlFlow = v'.isControlFlow := by
  rw [isControlFlow, isControlFlow, h.op]

end Node.Same

namespace Graph.SameData

variable {g g' : Graph}

theorem symm (h : g.SameData g') : g'.SameData g where
  size := h.size.symm
  same i v v' hv hv' := (h.same i v' v hv' hv).symm
  carries j output i slot := (h.carries j output i slot).symm

/-- Graphs with the same node descriptions, and with data edges that are permuted. -/
theorem of_perm (hspecs : g.nodes.map (·.toNodeSpec) = g'.nodes.map (·.toNodeSpec))
    (hedges : (g.edges.toList.filter (·.isData)).Perm (g'.edges.toList.filter (·.isData))) :
    g.SameData g' where
  size := by simpa using congrArg Array.size hspecs
  same := by
    intro i v v' hv hv'
    have hspec : v.toNodeSpec = v'.toNodeSpec := by
      have hi := congrArg (·[i]?) hspecs
      rw [node?] at hv hv'
      simpa [hv, hv'] using hi
    refine ⟨congrArg NodeSpec.name hspec, congrArg NodeSpec.op hspec,
      congrArg NodeSpec.outputs hspec, fun key => ?_⟩
    rw [Node.attr?, Node.attr?, hspec]
  carries := by
    intro j output i slot
    have hmem := hedges.mem_iff (a := ⟨j, i, .data output slot⟩)
    simpa [Edge.isData, Carries] using hmem

theorem exists_node? (h : g.SameData g') {i : Nat} {v : Node} (hv : g.node? i = some v) :
    ∃ v', g'.node? i = some v' ∧ v.Same v' := by
  have hi : i < g'.nodes.size := h.size ▸ node?_lt hv
  obtain ⟨v', hv'⟩ := Graph.exists_node? hi
  exact ⟨v', hv', h.same i v v' hv hv'⟩

theorem is_eq (h : g.SameData g') {role : Node → Bool}
    (hrole : ∀ v v' : Node, v.Same v' → role v = role v') (i : Nat) :
    g.is role i = g'.is role i := by
  cases hv : g.node? i with
  | none =>
    have hv' : g'.node? i = none := by
      rw [node?, Array.getElem?_eq_none_iff] at hv ⊢
      rw [← h.size]
      exact hv
    rw [Graph.is, Graph.is, hv, hv']
  | some v =>
    obtain ⟨v', hv', hsame⟩ := h.exists_node? hv
    rw [is_of_node? _ hv, is_of_node? _ hv', hrole v v' hsame]

theorem places_eq (h : g.SameData g') {role : Node → Bool}
    (hrole : ∀ v v' : Node, v.Same v' → role v = role v') : g.places role = g'.places role := by
  rw [places, places, h.size]
  congr 1
  funext i
  exact h.is_eq hrole i

theorem position?_eq (h : g.SameData g') {i : Nat} {v : Node} (hv : g.node? i = some v) :
    g.position? i = g'.position? i := by
  obtain ⟨v', hv', hsame⟩ := h.exists_node? hv
  rw [position?, position?, hv, hv', Option.bind_some, Option.bind_some, hsame.position_eq]

end Graph.SameData

end Source

section DataInputs

variable {g g' : Source.Graph} (wf : g.WellFormed) (wf' : g'.WellFormed) (h : g.SameData g')

/-- The data edges into a node, each listed once. -/
theorem Source.Graph.WellFormed.dataEdges_nodup (wf : g.WellFormed) (i : Nat) :
    (g.edges.toList.filter fun e => e.isData && e.dst = i).Nodup := by
  refine (wf.slots.filter _).imp_of_mem ?_
  intro e e' he _ hapart hsame
  subst hsame
  have hdata : e.isData = true := by
    have := (List.mem_filter.mp he).2
    simp only [Bool.and_eq_true] at this
    exact this.1
  obtain ⟨output, input, hkind⟩ := Edge.isData_iff.mp hdata
  have henters : e.enters input = true := Edge.enters_iff.mpr ⟨output, hkind⟩
  exact hapart rfl input henters henters

include wf wf' h

/-- The number of data inputs is given by the data edges. -/
theorem Source.Graph.SameData.inputs_eq {i : Nat} {v v' : Source.Node} (hv : g.node? i = some v)
    (hv' : g'.node? i = some v') : v.inputs = v'.inputs := by
  have hmem : ∀ {g g' : Source.Graph}, g.SameData g' →
      ∀ e ∈ g.edges.toList.filter (fun e => e.isData && e.dst = i),
        e ∈ g'.edges.toList.filter (fun e => e.isData && e.dst = i) := by
    intro g g' h e he
    obtain ⟨hedge, hdata⟩ := List.mem_filter.mp he
    refine List.mem_filter.mpr ⟨?_, hdata⟩
    obtain ⟨src, dst, kind⟩ := e
    simp only [Bool.and_eq_true] at hdata
    obtain ⟨output, input, hkind⟩ := Edge.isData_iff.mp hdata.1
    obtain rfl : kind = .data output input := hkind
    exact Array.mem_toList_iff.mpr
      ((h.carries src output dst input).mp (Array.mem_toList_iff.mp hedge))
  have hperm := (List.perm_ext_iff_of_nodup (wf.dataEdges_nodup i) (wf'.dataEdges_nodup i)).mpr
    fun e => ⟨hmem h e, hmem h.symm e⟩
  rw [wf.inputs i v hv, wf'.inputs i v' hv', List.countP_eq_length_filter,
    List.countP_eq_length_filter, hperm.length_eq]

theorem Source.Graph.SameData.needsValue_eq {i : Nat} {v v' : Source.Node}
    (hv : g.node? i = some v) (hv' : g'.node? i = some v') (slot : Nat) :
    needsValue v slot = needsValue v' slot := by
  have hinputs := h.inputs_eq wf wf' hv hv'
  unfold needsValue
  rw [(h.same i v v' hv hv').op]
  split
  case h_1 kind _ =>
    unfold StaticSlots.contains
    rw [hinputs]
  case h_2 => rfl

/-- A value on a slot is read through the data edge into it. -/
theorem Source.Graph.SameData.staticInput_eq {i : Nat} {v v' : Source.Node}
    (hv : g.node? i = some v) (hv' : g'.node? i = some v') (statics : List (Option Tensor))
    (slot : Nat) : (⟨v, g, statics⟩ : Context).staticInput slot =
      (⟨v', g', statics⟩ : Context).staticInput slot := by
  have hsame := h.same i v v' hv hv'
  have hrefuse : (⟨v, g, statics⟩ : Context).refuse = (⟨v', g', statics⟩ : Context).refuse := by
    funext cause
    rw [Context.refuse, Context.refuse, hsame.name, hsame.op]
  obtain ⟨hnone, hnot⟩ | ⟨j, output, hcarries, hedge⟩ := Graph.inputEdge?_cases wf hv slot
  · obtain ⟨hnone', -⟩ | ⟨j, output, hcarries, -⟩ := Graph.inputEdge?_cases wf' hv' slot
    · simp only [Context.staticInput, hnone, hnone', hrefuse]
    · exact absurd ((h.carries j output i slot).mpr hcarries) (hnot j output)
  · have hedge' := Graph.inputEdge?_of_carries wf' hv' ((h.carries j output i slot).mp hcarries)
    obtain ⟨producer, hp⟩ := hcarries.exists_producer wf
    obtain ⟨producer', hp', hproducer⟩ := h.exists_node? hp
    simp only [Context.staticInput, hedge, hedge', Graph.node_of_some hp, Graph.node_of_some hp',
      except_ok_bind, hrefuse, Node.int, Node.tensor, hproducer.attrOfKind_eq,
      hproducer.isArgument_eq, hproducer.op, hproducer.name, Context.argumentValue?]

end DataInputs

/-! ### Preparing them -/

section Preparing

variable {g g' : Source.Graph} (wf : g.WellFormed) (wf' : g'.WellFormed) (h : g.SameData g')
include h

theorem Source.Graph.SameData.preparable (hg : g.Preparable) : g'.Preparable := by
  obtain ⟨hcalm, hposition⟩ := hg
  refine ⟨fun i => ?_, fun i v' hv' harg => ?_⟩
  · rw [← h.is_eq (fun _ _ hsame => hsame.isControlFlow_eq) i]
    exact hcalm i
  · obtain ⟨v, hv, hsame⟩ := h.symm.exists_node? hv'
    rw [hsame.isArgument_eq] at harg
    obtain ⟨k, hk, hlt⟩ := hposition i v hv harg
    rw [h.places_eq fun _ _ hsame => hsame.isArgument_eq] at hlt
    exact ⟨k, hsame.position_eq.trans hk, hlt⟩

include wf wf'

theorem Source.Graph.SameData.feedsStaticSlot {i : Nat} {v v' : Source.Node}
    (hv : g.node? i = some v) (hv' : g'.node? i = some v') (hfeeds : feedsStaticSlot g v = true) :
    feedsStaticSlot g' v' = true := by
  obtain ⟨output, j, slot, consumer, hcarries, hconsumer, hsentinel, hneeds⟩ :=
    (feedsStaticSlot_iff wf hv).mp hfeeds
  obtain ⟨consumer', hconsumer', hsame⟩ := h.exists_node? hconsumer
  rw [hsame.isSentinel_eq] at hsentinel
  rw [h.needsValue_eq wf wf' hconsumer hconsumer'] at hneeds
  exact (feedsStaticSlot_iff wf' hv').mpr
    ⟨output, j, slot, consumer', (h.carries i output j slot).mp hcarries, hconsumer', hsentinel,
      hneeds⟩

end Preparing

namespace Source.Graph.SameData

variable {c c' : Compiled} (hc : c.Prepared) (hc' : c'.Prepared) (h : c.graph.SameData c'.graph)
include hc hc' h

theorem mem_params {i : Nat} : i ∈ c.parts.params ↔ i ∈ c'.parts.params := by
  rw [hc.mem_params, hc'.mem_params, h.is_eq fun _ _ hsame => hsame.isArgument_eq]

theorem mem_ops {i : Nat} : i ∈ c.parts.ops ↔ i ∈ c'.parts.ops := by
  rw [hc.mem_ops, hc'.mem_ops, h.is_eq fun _ _ hsame => hsame.isOrdinary_eq]

theorem mem_returns {i : Nat} : i ∈ c.parts.returns ↔ i ∈ c'.parts.returns := by
  rw [hc.mem_returns, hc'.mem_returns, h.is_eq fun _ _ hsame => hsame.isReturn_eq]

theorem params_length : c.parts.params.length = c'.parts.params.length := by
  rw [hc.params.length_eq, hc'.params.length_eq, h.places_eq fun _ _ hsame => hsame.isArgument_eq]

theorem returns_length : c.parts.returns.length = c'.parts.returns.length := by
  rw [hc.returns.length_eq, hc'.returns.length_eq, h.places_eq fun _ _ hsame => hsame.isReturn_eq]

theorem isStatic {k : Nat} (hk : c.isStatic k = true) : c'.isStatic k = true := by
  obtain ⟨i, hi, v, hv, hpos, hfeeds⟩ := (hc.isStatic k).mp hk
  obtain ⟨v', hv', hsame⟩ := h.exists_node? hv
  exact (hc'.isStatic k).mpr ⟨i, (h.mem_params hc hc').mp hi, v', hv',
    hsame.position_eq.symm.trans hpos, h.feedsStaticSlot hc.wf hc'.wf hv hv' hfeeds⟩

/-- The same arguments are static, so the same values are known. -/
theorem statics_eq (args : List Argument) : c.statics args = c'.statics args := by
  have hflags : c.isStatic = c'.isStatic := by
    funext k
    rw [Bool.eq_iff_iff]
    exact ⟨h.isStatic hc hc', h.symm.isStatic hc' hc⟩
  rw [Compiled.statics, Compiled.statics, hflags]

end Source.Graph.SameData

/-! ### Two runs -/

/-- What two runs keep for the node at place `i` unfolds to the same expressions. -/
def Alike (g g' : Source.Graph) (run run' : Run) (i : Nat) : Prop :=
  ∃ v v' outputs outputs', g.node? i = some v ∧ g'.node? i = some v' ∧
    run.outputs.get? v.name = some outputs ∧ run'.outputs.get? v'.name = some outputs' ∧
    OutputsAlike Simulation.trees run.target run'.target outputs outputs'

section TwoRuns

variable {g g' : Source.Graph} {run run' : Run}

theorem Alike.mono {next : Run} (hle : run' ≤ next) {i : Nat} (h : Alike g g' run run' i) :
    Alike g g' run next i := by
  obtain ⟨v, v', outputs, outputs', hv, hv', hget, hget', halike⟩ := h
  exact ⟨v, v', outputs, outputs', hv, hv', hget, hle.2 _ _ hget', halike.mono le_rfl hle.1⟩

/-- The same parameter in both runs. -/
theorem Alike.parameter {i : Nat} {v v' : Source.Node} (hv : g.node? i = some v)
    (hv' : g'.node? i = some v') {w w' : Wire} {k : Nat} {type : TensorType}
    (hget : run.outputs.get? v.name = some [some w])
    (hget' : run'.outputs.get? v'.name = some [some w'])
    (hnode : run.target.nodes[w]? = some ⟨w, .parameter k, [], type⟩)
    (hnode' : run'.target.nodes[w']? = some ⟨w', .parameter k, [], type⟩) :
    Alike g g' run run' i := by
  refine ⟨v, v', _, _, hv, hv', hget, hget', .cons (.some ?_) .nil⟩
  exact ⟨_, Graph.expr?_of_operands hnode .nil, Graph.expr?_of_operands hnode' .nil⟩

variable (wf : g.WellFormed) (wf' : g'.WellFormed) (h : g.SameData g') {i : Nat}
  {v v' : Source.Node} (hv : g.node? i = some v) (hv' : g'.node? i = some v') {done : List Nat}
  (hcovers : Covers g done run) (halike : ∀ j ∈ done, g'.Leads j i → Alike g g' run run' j)
include wf wf' h hv hv' hcovers halike

/-- Both runs find wires with the same expression behind an input slot. -/
theorem Source.Graph.SameData.resolveInput_alike {slot : Nat} {w : Wire}
    (hw : resolveInput g run.outputs v slot = .ok w) :
    ∃ w', resolveInput g' run'.outputs v' slot = .ok w' ∧
      Simulation.trees.wires run.target run'.target w w' := by
  obtain ⟨j, output, producer, wires, hcarries, hp, hget, hjoin⟩ := (resolveInput_eq_ok wf hv).mp hw
  have hcarries' := (h.carries j output i slot).mp hcarries
  have hj : j ∈ done := by
    obtain ⟨j', hj', u, hu, hname⟩ := hcovers.origin _ _ hget
    rw [wf.name_inj hu hp hname] at hj'
    exact hj'
  obtain ⟨u, producer', outputs, outputs', hu, hp', hget', hget'', hsame⟩ :=
    halike j hj hcarries'.leads
  obtain rfl : u = producer := Option.some.inj (hu.symm.trans hp)
  obtain rfl : outputs = wires := Option.some.inj (hget'.symm.trans hget)
  have hslot := forall₂_getElem? hsame output
  rw [Option.join_eq_some_iff.mp hjoin] at hslot
  cases hother : outputs'[output]? with
  | none =>
    rw [hother] at hslot
    cases hslot
  | some slot' =>
    rw [hother] at hslot
    cases hslot with
    | some hslot =>
      cases hslot with
      | some hwires =>
        refine ⟨_, (resolveInput_eq_ok wf' hv').mpr
          ⟨j, output, producer', outputs', hcarries', hp', hget'', ?_⟩, hwires⟩
        rw [hother]
        rfl

/-- Both runs find operands with the same expressions. -/
theorem Source.Graph.SameData.operands_alike {slots : List Nat} {ws : List Wire}
    (hws : slots.mapM (resolveInput g run.outputs v) = .ok ws) :
    ∃ ws', slots.mapM (resolveInput g' run'.outputs v') = .ok ws' ∧
      List.Forall₂ (Simulation.trees.wires run.target run'.target) ws ws' := by
  have hslots := except_mapM_eq_ok.mp hws
  clear hws
  induction hslots with
  | nil => exact ⟨[], rfl, .nil⟩
  | cons hw _ ih =>
    obtain ⟨w', hw', hwires⟩ := h.resolveInput_alike wf wf' hv hv' hcovers halike hw
    obtain ⟨ws', hws', hrest⟩ := ih
    exact ⟨w' :: ws', except_mapM_eq_ok.mpr (.cons hw' (except_mapM_eq_ok.mp hws')),
      .cons hwires hrest⟩

/-- An op that one run has lowered is lowered by the other, behind the nodes that lead to it, to
outputs with the same expressions. -/
theorem Source.Graph.SameData.lowerOp_alike {statics : List (Option Tensor)}
    (hlowered : Lowered g statics run i) :
    ∃ kind ws' outputs outputs' target, OpKind.ofName? v'.op = some kind ∧
      (kind.operandSlots.of v').mapM (resolveInput g' run'.outputs v') = .ok ws' ∧
      v'.outputs * slotBytes < signedLimit ∧
      kind.rule ⟨v', g', statics⟩ ws' run'.target = .ok outputs' target ∧
      run.outputs.get? v.name = some outputs ∧
      OutputsAlike Simulation.trees run.target target outputs outputs' := by
  obtain ⟨u, kind, ws, outputs, before, after, hu, hkind, hws, hroom, hhas, hrule, hba, hle,
    hget⟩ := hlowered
  obtain rfl : u = v := Option.some.inj (hu.symm.trans hv)
  have hsame := h.same i u v' hv hv'
  have hinputs := h.inputs_eq wf wf' hv hv'
  have hslots : kind.operandSlots.of u = kind.operandSlots.of v' := by
    unfold OperandSlots.of
    rw [hinputs]
  obtain ⟨ws', hws', hwires⟩ := h.operands_alike wf wf' hv hv' hcovers halike hws
  -- the rule of the first run saw an earlier arena, with the same expressions on its wires
  have hbefore : List.Forall₂ (Simulation.trees.wires before run'.target) ws ws' := by
    refine List.Forall₂.imp ?_ ((List.forall₂_and_left _ _).mpr ⟨hhas, hwires⟩)
    rintro w w' ⟨⟨type, ht⟩, e, he, he'⟩
    refine ⟨e, ?_, he'⟩
    obtain ⟨node, hnode, -⟩ := Option.map_eq_some_iff.mp ht
    have hlt : w < before.size := (Array.getElem?_eq_some_iff.mp hnode).1
    rw [Graph.expr?_of_le (hba.trans hle) hlt]
    exact he
  have hagree : (⟨u, g, statics⟩ : Context).Agree (kind.staticSlots.contains u ·)
      ⟨v', g', statics⟩ := by
    refine ⟨hsame.attr, hsame.outputs, hinputs, fun slot _ => ?_⟩
    rw [h.staticInput_eq wf wf' hv hv']
    exact Paired.refl fun _ _ => trivial
  have hlength : ws.length = (kind.operandSlots.of u).length :=
    (except_mapM_eq_ok.mp hws).length_eq.symm
  have htwin : Twin Simulation.trees _ before run'.target (OutputsAlike Simulation.trees)
      (kind.rule ⟨u, g, statics⟩ ws before) (kind.rule ⟨v', g', statics⟩ ws' run'.target) :=
    kind.rule_twin hagree trivial hbefore hlength
  rw [hrule] at htwin
  cases hrule' : kind.rule ⟨v', g', statics⟩ ws' run'.target with
  | error e target =>
    rw [hrule'] at htwin
    cases htwin
  | ok outputs' target =>
    rw [hrule'] at htwin
    cases htwin with
    | ok _ _ _ hpost =>
      refine ⟨kind, ws', outputs, outputs', target, hsame.op ▸ hkind, ?_, hsame.outputs ▸ hroom,
        hrule', hget, OutputsAlike.mono hpost hle le_rfl⟩
      rw [← hslots]
      exact hws'

end TwoRuns

/-- A position that a node takes in a run that has succeeded is free for it in any other run. -/
theorem Source.Graph.SameData.free {g g' : Source.Graph} (h : g.SameData g') {part done : List Nat}
    {slots slots' : List (Option Wire)} (hfilling : Filling g.position? part slots)
    (hfilling' : Filling g'.position? done slots') (hlength : slots.length = slots'.length)
    {i k : Nat} {v : Source.Node} {w : Wire} (hv : g.node? i = some v) (hk : position v = .ok k)
    (hslot : slots[k]? = some (some w)) (hi : i ∈ part) (hdone : ∀ j ∈ done, j ∈ part)
    (hnew : i ∉ done) : slots'[k]? = some none := by
  have hlt : k < slots'.length := hlength ▸ (List.getElem?_eq_some_iff.mp hslot).1
  refine hfilling'.free hlt fun j hj hpos => hnew ?_
  have hposi : g.position? i = some k := Graph.position?_of_ok hv hk
  obtain ⟨k', a, hposj, -⟩ := hfilling.filled j (hdone j hj)
  obtain ⟨u, hu⟩ : ∃ u, g.node? j = some u := by
    unfold Graph.position? at hposj
    cases hu : g.node? j with
    | none => simp [hu] at hposj
    | some u => exact ⟨u, rfl⟩
  rw [← h.position?_eq hu] at hpos
  rw [hfilling.injective hi (hdone j hj) (hposi.trans hpos.symm)]
  exact hj

namespace Source.Graph.SameData

variable {c c' : Compiled} (hc : c.Prepared) (hc' : c'.Prepared) (h : c.graph.SameData c'.graph)
  {args : List Argument} {run run' : Run}
include hc hc' h

/-- The second run makes the same parameters. -/
theorem params_alike {start : Run} {parameters : List (Option Wire)}
    (hparams : ParamsDone c.graph args c.parts.params.length c.parts.params start parameters)
    (hle : start ≤ run) :
    ∃ s', c'.parts.params.foldlM (addParameter c'.graph args)
        ({}, List.replicate c'.parts.params.length none) = .ok s' ∧
      ParamsDone c'.graph args c'.parts.params.length c'.parts.params s'.1 s'.2 ∧
      ∀ i ∈ c'.parts.params, Alike c.graph c'.graph run s'.1 i := by
  refine foldlM_ok_of_step (fun done (s' : Run × List (Option Wire)) =>
    ParamsDone c'.graph args c'.parts.params.length done s'.1 s'.2 ∧
      ∀ i ∈ done, Alike c.graph c'.graph run s'.1 i) ⟨ParamsDone.empty _ _ _, by simp⟩ ?_
  rintro done i rest ⟨run', slots'⟩ hsplit ⟨hdone, halike⟩
  have hmem : ∀ j ∈ done ++ i :: rest, j ∈ c.parts.params := by
    intro j hj
    exact (h.mem_params hc hc').mpr (hsplit ▸ hj)
  have hnew : i ∉ done := not_mem_front hc'.params_nodup hsplit
  obtain ⟨v, k, type, w, hv, hsupplied, hslot, hnode, hget⟩ := hparams.entered i (hmem i (by simp))
  obtain ⟨v', hv', hsame⟩ := h.exists_node? hv
  have hsupplied' : Supplied args v' k type := by
    obtain ⟨hk, declared, arg, hdeclared, hsupply⟩ := hsupplied
    refine ⟨hsame.position_eq ▸ hk, declared, arg, ?_, hsupply⟩
    exact (hsame.attrOfKind_eq _ _ _).symm.trans hdeclared
  have hfree : slots'[k]? = some none := by
    refine h.free hparams.filling hdone.filling ?_ hv hsupplied.1 hslot (hmem i (by simp)) ?_ hnew
    · rw [hparams.length, hdone.length, h.params_length hc hc']
    · intro j hj
      exact hmem j (List.mem_append_left _ hj)
  have hstep := hdone.step hc'.wf hv' hnew hsupplied' hfree
  refine ⟨_, (addParameter_eq_ok hv').mpr ⟨k, type, hsupplied', hfree, rfl⟩, hstep, ?_⟩
  intro j hj
  obtain hj | rfl := (List.mem_append.mp hj).imp_right List.mem_singleton.mp
  · exact (halike j hj).mono (hdone.covers.le_extend hc'.wf hv' hnew (Graph.le_push _ _ _ _) _)
  · exact Alike.parameter hv hv' (hle.2 _ _ hget) (run'.get?_extend_self _ v'.name _)
      (hle.1 w _ hnode) (Graph.node_push_self run'.target (.parameter k) [] type)

/-- The second run lowers the same ops, to outputs with the same expressions. -/
theorem ops_alike {start start' : Run}
    (hops : OpsDone c.graph (c.statics args) c.parts.params start c.parts.ops run)
    (hstart' : Covers c'.graph c'.parts.params start')
    (halike : ∀ i ∈ c'.parts.params, Alike c.graph c'.graph run start' i) :
    ∃ run', c'.parts.ops.foldlM (lowerOp c'.graph (c'.statics args)) start' = .ok run' ∧
      OpsDone c'.graph (c'.statics args) c'.parts.params start' c'.parts.ops run' ∧
      ∀ i ∈ c'.parts.params ++ c'.parts.ops, Alike c.graph c'.graph run run' i := by
  refine foldlM_ok_of_step (fun done run' =>
    OpsDone c'.graph (c'.statics args) c'.parts.params start' done run' ∧
      ∀ i ∈ c'.parts.params ++ done, Alike c.graph c'.graph run run' i) ?_ ?_
  · refine ⟨OpsDone.empty hstart', ?_⟩
    rw [List.append_nil]
    exact halike
  rintro done i rest run' hsplit ⟨hdone, halike⟩
  have hi' : i ∈ c'.parts.ops := by simp [hsplit]
  have hi : i ∈ c.parts.ops := (h.mem_ops hc hc').mpr hi'
  have hnew : i ∉ c'.parts.params ++ done := by
    refine not_mem_front hc'.nodup_append (?_ : _ = _ ++ i :: rest)
    rw [hsplit, List.append_assoc]
  obtain ⟨v, hv⟩ := hc.node?_of_mem_ops hi
  obtain ⟨v', hv', hsame⟩ := h.exists_node? hv
  -- what leads to the op has been lowered before it in this run as well
  have hleads : ∀ j ∈ c.parts.params ++ c.parts.ops, c'.graph.Leads j i →
      Alike c.graph c'.graph run run' j := by
    intro j hj hji
    refine halike j ?_
    obtain hj | hj := List.mem_append.mp hj
    · exact List.mem_append_left _ ((h.mem_params hc hc').mp hj)
    · exact List.mem_append_right _ (hc'.before hsplit hji ((h.mem_ops hc hc').mp hj))
  obtain ⟨kind, ws', outputs, outputs', target, hkind, hws', hroom, hrule, hget, hout⟩ :=
    h.lowerOp_alike hc.wf hc'.wf hv hv' hops.covers hleads (hops.lowered i hi)
  rw [h.statics_eq hc hc'] at hrule
  have hstep := hdone.step hc'.wf hv' hnew hkind hws' hroom hrule
  refine ⟨_, (lowerOp_eq_ok hv').mpr
    ⟨kind, ws', outputs', target, hkind, hws', hroom, hrule, rfl⟩, hstep, ?_⟩
  have hhas := hdone.covers.has_of_mapM hc'.wf hv' hws'
  have hlength := (except_mapM_eq_ok.mp hws').length_eq.symm
  have hle : run'.target ≤ target :=
    (OpKind.rule_ok hhas hlength keptByAppend_true trivial hrule).1
  intro j hj
  rw [← List.append_assoc] at hj
  obtain hj | rfl := (List.mem_append.mp hj).imp_right List.mem_singleton.mp
  · exact (halike j hj).mono (hdone.covers.le_extend hc'.wf hv' hnew hle _)
  · exact ⟨v, v', outputs, outputs', hv, hv', hget, run'.get?_extend_self target v'.name outputs',
      hout⟩

variable (hcovers : Covers c.graph (c.parts.params ++ c.parts.ops) run)
  (halike : ∀ i ∈ c'.parts.params ++ c'.parts.ops, Alike c.graph c'.graph run run' i)
include hcovers halike

/-- Behind all ops, both runs find wires with the same expression at every input. -/
theorem result_alike {i : Nat} {v v' : Source.Node} (hv : c.graph.node? i = some v)
    (hv' : c'.graph.node? i = some v') {slot : Nat} {w : Wire}
    (hw : resolveInput c.graph run.outputs v slot = .ok w) :
    ∃ w', resolveInput c'.graph run'.outputs v' slot = .ok w' ∧
      Simulation.trees.wires run.target run'.target w w' := by
  refine h.resolveInput_alike hc.wf hc'.wf hv hv' hcovers (fun j hj _ => halike j ?_) hw
  rw [List.mem_append, h.mem_params hc hc', h.mem_ops hc hc', ← List.mem_append] at hj
  exact hj

/-- The second run collects its results. -/
theorem results_alike {results : List (Option Wire)}
    (hresults : ResultsDone c.graph run.outputs c.parts.returns.length c.parts.returns results) :
    ∃ results', c'.parts.returns.foldlM (addResult c'.graph run'.outputs)
        (List.replicate c'.parts.returns.length none) = .ok results' ∧
      ResultsDone c'.graph run'.outputs c'.parts.returns.length c'.parts.returns results' := by
  refine foldlM_ok_of_step
    (ResultsDone c'.graph run'.outputs c'.parts.returns.length) (ResultsDone.empty _ _ _) ?_
  intro done i rest slots' hsplit hdone
  have hmem : ∀ j ∈ done ++ i :: rest, j ∈ c.parts.returns := by
    intro j hj
    exact (h.mem_returns hc hc').mpr (hsplit ▸ hj)
  have hnew : i ∉ done := not_mem_front hc'.returns_nodup hsplit
  obtain ⟨v, k, w, hv, hone, hk, hw, hslot⟩ := hresults.returned i (hmem i (by simp))
  obtain ⟨v', hv', hsame⟩ := h.exists_node? hv
  obtain ⟨w', hw', -⟩ := h.result_alike hc hc' hcovers halike hv hv' hw
  have hone' : v'.inputs = 1 := (h.inputs_eq hc.wf hc'.wf hv hv').symm.trans hone
  have hk' : position v' = .ok k := hsame.position_eq.symm.trans hk
  have hfree : slots'[k]? = some none := by
    refine h.free hresults.filling hdone.filling ?_ hv hk hslot (hmem i (by simp)) ?_ hnew
    · rw [hresults.length, hdone.length, h.returns_length hc hc']
    · intro j hj
      exact hmem j (List.mem_append_left _ hj)
  exact ⟨_, (addResult_eq_ok hv').mpr ⟨k, w', hone', hk', hfree, hw', rfl⟩,
    hdone.step hv' hone' hk' hfree hw'⟩

/-- Results at the same position have the same expression. -/
theorem expr?_result {results results' : List (Option Wire)}
    (hresults : ResultsDone c.graph run.outputs c.parts.returns.length c.parts.returns results)
    (hresults' : ResultsDone c'.graph run'.outputs c'.parts.returns.length c'.parts.returns
      results') {k : Nat} {w w' : Wire} (hk : results[k]? = some (some w))
    (hk' : results'[k]? = some (some w')) :
    ∃ e, run.target.expr? w = some e ∧ run'.target.expr? w' = some e := by
  obtain ⟨i, hi, hpos⟩ := hresults.filling.origin k w hk
  obtain ⟨v, l, u, hv, -, hl, hu, hslot⟩ := hresults.returned i hi
  obtain ⟨v', l', u', hv', -, hl', hu', hslot'⟩ :=
    hresults'.returned i ((h.mem_returns hc hc').mp hi)
  obtain rfl : l = k := by
    rw [Graph.position?_of_ok hv hl] at hpos
    exact Option.some.inj hpos
  obtain rfl : l' = l := by
    rw [← (h.same i v v' hv hv').position_eq, hl] at hl'
    exact (Except.ok.inj hl').symm
  obtain rfl : u = w := by simpa [hslot] using hk
  obtain rfl : u' = w' := by simpa [hslot'] using hk'
  obtain ⟨u'', hu'', hwires⟩ := h.result_alike hc hc' hcovers halike hv hv' hu
  obtain rfl : u'' = u' := Except.ok.inj (hu''.symm.trans hu')
  exact hwires

end Source.Graph.SameData

/-- A function lowered from one graph is lowered from the other, with as many parameters and results
and the same expressions for its results. -/
theorem Source.Graph.SameData.lower_alike {c c' : Compiled} (hc : c.Prepared) (hc' : c'.Prepared)
    (h : c.graph.SameData c'.graph) {args : List Argument} {f : Function}
    (hlower : c.lower args = .ok f) :
    ∃ f', c'.lower args = .ok f' ∧ f.parameters.length = f'.parameters.length ∧
      f.results.length = f'.results.length ∧
      ∀ (k : Nat) (w w' : Wire), f.results[k]? = some w → f'.results[k]? = some w' →
        ∃ e, f.graph.expr? w = some e ∧ f'.graph.expr? w' = some e := by
  obtain ⟨start, run, parameters, results, -, hparams, hops, hresults, rfl⟩ := hc.lower_spec hlower
  obtain ⟨⟨start', parameters'⟩, hfold, hparams', halike⟩ := h.params_alike hc hc' hparams hops.le
  obtain ⟨run', hfold', hops', halike'⟩ := h.ops_alike hc hc' hops hparams'.covers halike
  obtain ⟨results', hfold'', hresults'⟩ := h.results_alike hc hc' hops.covers halike' hresults
  have hrun' : c'.runOps args = .ok (run', parameters') :=
    Compiled.runOps_eq_ok.mpr ⟨start', hfold, hfold'⟩
  refine ⟨_, Compiled.lower_eq_ok.mpr ⟨run', parameters', results', hrun', hfold'', rfl⟩,
    ?_, ?_, ?_⟩
  · show (parameters.filterMap id).length = (parameters'.filterMap id).length
    rw [hparams.filling.length_filterMap hparams.length.symm,
      hparams'.filling.length_filterMap hparams'.length.symm, h.params_length hc hc']
  · show (results.filterMap id).length = (results'.filterMap id).length
    rw [hresults.filling.length_filterMap hresults.length.symm,
      hresults'.filling.length_filterMap hresults'.length.symm, h.returns_length hc hc']
  · intro k w w' hw hw'
    have hk := (hresults.filling.getElem?_filterMap hresults.length.symm).mp hw
    have hk' := (hresults'.filling.getElem?_filterMap hresults'.length.symm).mp hw'
    exact h.expr?_result hc hc' hops.covers halike' hresults hresults' hk hk'

/-- **Control edges and the order of the edges change nothing that is computed.** Two acyclic graphs
with the same nodes and the same data edges can both be prepared or neither; for all arguments both
can be lowered or neither; and the two functions have as many parameters and results, and the same
expression for every result. -/
theorem lowering_depends_on_data {g g' : Source.Graph} (hbuilt : g.Built) (hbuilt' : g'.Built)
    (hacyclic : g.Acyclic) (hacyclic' : g'.Acyclic) (hsame : g.SameData g') :
    ((∃ c, prepare g = .ok c) ↔ ∃ c', prepare g' = .ok c') ∧
    ∀ c c', prepare g = .ok c → prepare g' = .ok c' → ∀ args : List Argument,
      ((∃ f, c.lower args = .ok f) ↔ ∃ f', c'.lower args = .ok f') ∧
      ∀ f f', c.lower args = .ok f → c'.lower args = .ok f' →
        f.parameters.length = f'.parameters.length ∧ f.results.length = f'.results.length ∧
        ∀ (k : Nat) (w w' : Wire), f.results[k]? = some w → f'.results[k]? = some w' →
          ∃ e, f.graph.expr? w = some e ∧ f'.graph.expr? w' = some e := by
  have wf := hbuilt.wellFormed
  have wf' := hbuilt'.wellFormed
  obtain ⟨order, horder⟩ := hacyclic.order wf
  obtain ⟨order', horder'⟩ := hacyclic'.order wf'
  refine ⟨?_, ?_⟩
  · rw [exists_prepare_iff wf horder, exists_prepare_iff wf' horder']
    exact ⟨hsame.preparable, hsame.symm.preparable⟩
  · intro c c' hprepare hprepare' args
    have hc := prepared_of_prepare wf hprepare
    have hc' := prepared_of_prepare wf' hprepare'
    obtain ⟨rfl, -⟩ := prepare_eq_ok hprepare
    obtain ⟨rfl, -⟩ := prepare_eq_ok hprepare'
    refine ⟨⟨?_, ?_⟩, ?_⟩
    · rintro ⟨f, hf⟩
      obtain ⟨f', hf', -⟩ := hsame.lower_alike hc hc' hf
      exact ⟨f', hf'⟩
    · rintro ⟨f', hf'⟩
      obtain ⟨f, hf, -⟩ := hsame.symm.lower_alike hc' hc hf'
      exact ⟨f, hf⟩
    · intro f f' hf hf'
      obtain ⟨f'', hf'', halike⟩ := hsame.lower_alike hc hc' hf
      obtain rfl : f'' = f' := Except.ok.inj (hf''.symm.trans hf')
      exact halike

/-- Two branches over one argument, and their sum as the result. -/
def branches : List Call := [
  .node { name := "x", op := "_Arg",
          attrs := (NameTable.empty.insert "T" (.type .float)).insert "index" (.int 0) },
  .node { name := "p", op := "Relu" },
  .node { name := "q", op := "Neg" },
  .node { name := "s", op := "Add" },
  .node { name := "out", op := "_Retval", attrs := NameTable.empty.insert "index" (.int 0) }]

/-- The data edges of the branches. -/
def branchesForward : Source.Graph := Graph.build (branches ++
  [.edge 0 0 1 0, .edge 0 0 2 0, .edge 1 0 3 0, .edge 2 0 3 1, .edge 3 0 4 0])

/-- The same data edges the other way round, and a control edge from one branch to the other. -/
def branchesOrdered : Source.Graph := Graph.build (branches ++
  [.edge 3 0 4 0, .edge 2 0 3 1, .edge 1 0 3 0, .control 1 2, .edge 0 0 2 0, .edge 0 0 1 0])

theorem branches_sameData : branchesForward.SameData branchesOrdered :=
  Graph.SameData.of_perm (by decide +kernel) (by decide +kernel)

/-- The two graphs lower the branches in opposite order, to one expression. -/
theorem branches_same_expression :
    ∃ c c' f f', prepare branchesForward = .ok c ∧ prepare branchesOrdered = .ok c' ∧
      c.lower [⟨.float, [2], none⟩] = .ok f ∧ c'.lower [⟨.float, [2], none⟩] = .ok f' ∧ f ≠ f' ∧
      ∃ e, f.graph.expr? 3 = some e ∧ f'.graph.expr? 3 = some e := by
  have horder : branchesForward.order = .ok [0, 2, 1, 3, 4] := by rfl
  have horder' : branchesOrdered.order = .ok [0, 1, 2, 3, 4] := by rfl
  have hbuilt : branchesForward.Built := ⟨_, rfl⟩
  have hbuilt' : branchesOrdered.Built := ⟨_, rfl⟩
  have hprepare : prepare branchesForward =
      .ok ⟨branchesForward, ⟨[0], [4], [2, 1, 3]⟩, [false]⟩ := by rfl
  have hprepare' : prepare branchesOrdered =
      .ok ⟨branchesOrdered, ⟨[0], [4], [1, 2, 3]⟩, [false]⟩ := by rfl
  have hlower : (⟨branchesForward, ⟨[0], [4], [2, 1, 3]⟩, [false]⟩ : Compiled).lower
      [⟨.float, [2], none⟩] = .ok ⟨⟨#[⟨0, .parameter 0, [], ⟨.f32, [2]⟩⟩,
        ⟨1, .unary .negative, [0], ⟨.f32, [2]⟩⟩, ⟨2, .unary .relu, [0], ⟨.f32, [2]⟩⟩,
        ⟨3, .binary .add, [2, 1], ⟨.f32, [2]⟩⟩]⟩, [0], [3]⟩ := by rfl
  have hlower' : (⟨branchesOrdered, ⟨[0], [4], [1, 2, 3]⟩, [false]⟩ : Compiled).lower
      [⟨.float, [2], none⟩] = .ok ⟨⟨#[⟨0, .parameter 0, [], ⟨.f32, [2]⟩⟩,
        ⟨1, .unary .relu, [0], ⟨.f32, [2]⟩⟩, ⟨2, .unary .negative, [0], ⟨.f32, [2]⟩⟩,
        ⟨3, .binary .add, [1, 2], ⟨.f32, [2]⟩⟩]⟩, [0], [3]⟩ := by rfl
  have hdata := lowering_depends_on_data hbuilt hbuilt'
    (Graph.acyclic_of_order hbuilt.wellFormed horder)
    (Graph.acyclic_of_order hbuilt'.wellFormed horder') branches_sameData
  refine ⟨_, _, _, _, hprepare, hprepare', hlower, hlower', by decide, ?_⟩
  exact ((hdata.2 _ _ hprepare hprepare' _).2 _ _ hlower hlower').2.2 0 3 3 rfl rfl

end GraphLowering
