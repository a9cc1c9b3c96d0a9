import Mathlib
import GraphLowering.Proofs.SourceGraph

/-!
# The representation of a graph

A graph keeps its nodes and edges, and beside them the edges at each node, the number of inputs of
each node and a table of names. The calls update these parts one by one. Whatever calls are made, in
whatever order and with whatever indices and slots, the parts say the same of the graph; a call adds
exactly what it names, or it is refused and changes nothing.

* `Graph.specs` — the descriptions of the nodes.
* `Built.withNode`, `Built.withEdge` — a graph that is built can be built on.
* `Call.Allowed`, `Call.Adds` — when a call can be carried out, and what it then adds.
* `addEdge_of_fits`, `callRun_of_allowed`, `callRun_of_not_allowed` — a call is carried out exactly
  if it is allowed.
* `Graph.Coherent` — the parts of a graph agree, said of each node, edge and slot.
* `calls_keep_representation` — every graph that calls build is coherent, and a refused call leaves
  it as it was.
-/

namespace GraphLowering.Source

namespace Graph

/-- The descriptions of the nodes, in the order of their places. -/
def specs (g : Graph) : Array NodeSpec := g.nodes.map (·.toNodeSpec)

/-! ### Appending to a graph -/

theorem specs_withNode (g : Graph) (spec : NodeSpec) :
    (g.withNode spec).specs = g.specs.push spec := by
  simp [specs, withNode]

theorem specs_getElem? (g : Graph) (i : Nat) : g.specs[i]? = (g.node? i).map (·.toNodeSpec) := by
  rw [specs, Array.getElem?_map, node?]

theorem specs_withEdge (g : Graph) (e : Edge) : (g.withEdge e).specs = g.specs := by
  apply Array.ext_getElem?
  intro i
  rw [specs_getElem?, specs_getElem?, node?_withEdge, Option.map_map]
  rfl

theorem edges_withEdge (g : Graph) (e : Edge) : (g.withEdge e).edges = g.edges.push e := rfl

variable {g : Graph}

theorem addNode_of_fresh {spec : NodeSpec} (h : g.find? spec.name = none) :
    addNode spec g = .ok g.nodes.size (g.withNode spec) := by
  have hnot : ¬ g.byName.contains spec.name = true := by simpa [NameTable.contains, find?] using h
  rw [addNode_eq, if_neg hnot]

theorem addNode_of_taken {spec : NodeSpec} (h : g.find? spec.name ≠ none) :
    addNode spec g = .error (.invalid (.duplicateNode spec.name)) g := by
  have htaken : g.byName.contains spec.name = true := by
    rw [NameTable.contains, Option.isSome_iff_ne_none]
    exact h
  rw [addNode_eq, if_pos htaken]

theorem addEdge_of_fits {src output dst input : Nat} (h : g.Fits ⟨src, dst, .data output input⟩) :
    addEdge src output dst input g =
      .ok g.edges.size (g.withEdge ⟨src, dst, .data output input⟩) := by
  obtain ⟨⟨producer, hp, hout⟩, consumer, hc, hfree⟩ := h
  have ho : ¬ producer.outputs ≤ output := Nat.not_le_of_lt (hout output input rfl)
  have hi : ¬ (g.inputEdge? consumer input).isSome = true := by simp [hfree output input rfl]
  rw [addEdge, Step.bind_of_ok (nodeAt_of_some hp), Step.bind_of_ok (nodeAt_of_some hc), if_neg ho]
  beta_reduce
  rw [Step.bind_of_ok (Step.get_apply g), if_neg hi]
  rfl

/-- An output that its producer does not declare is refused. -/
theorem addEdge_of_no_output {src output dst input : Nat} {producer consumer : Node}
    (hp : g.node? src = some producer) (hc : g.node? dst = some consumer)
    (hle : producer.outputs ≤ output) : addEdge src output dst input g =
      .error (.invalid (.noOutput producer.name producer.outputs output)) g := by
  rw [addEdge, Step.bind_of_ok (nodeAt_of_some hp), Step.bind_of_ok (nodeAt_of_some hc), if_pos hle]
  exact Step.bind_of_error (Step.throw_apply _ g)

theorem addControl_of_fits {src dst : Nat} (h : g.Fits ⟨src, dst, .control⟩) :
    addControl src dst g = .ok g.edges.size (g.withEdge ⟨src, dst, .control⟩) := by
  obtain ⟨⟨producer, hp, -⟩, consumer, hc, -⟩ := h
  rw [addControl, Step.bind_of_ok (Step.discard_of_ok (nodeAt_of_some hp)),
    Step.bind_of_ok (Step.discard_of_ok (nodeAt_of_some hc))]
  rfl

/-! ### Building on -/

theorem Built.call (h : g.Built) (call : Call) : (g.after call).Built := by
  obtain ⟨calls, rfl⟩ := h
  exact ⟨calls ++ [call], by rw [build, List.foldl_append]; rfl⟩

theorem Built.withNode (h : g.Built) {spec : NodeSpec} (hfresh : g.find? spec.name = none) :
    (g.withNode spec).Built := by
  have hafter : g.after (.node spec) = g.withNode spec := by
    rw [after, Call.run, addNode_of_fresh hfresh]
  rw [← hafter]
  exact h.call _

theorem Built.withEdge (h : g.Built) {e : Edge} (fits : g.Fits e) : (g.withEdge e).Built := by
  obtain ⟨src, dst, kind⟩ := e
  cases kind with
  | data output input =>
    have hafter : g.after (.edge src output dst input) =
        g.withEdge ⟨src, dst, .data output input⟩ := by
      rw [after, Call.run, addEdge_of_fits fits]
    rw [← hafter]
    exact h.call _
  | control =>
    have hafter : g.after (.control src dst) = g.withEdge ⟨src, dst, .control⟩ := by
      rw [after, Call.run, addControl_of_fits fits]
    rw [← hafter]
    exact h.call _

end Graph

/-! ### What calls do -/

namespace Call

/-- Whether a call can be carried out: a node comes under a new name, and an edge fits. -/
def Allowed (g : Graph) : Call → Prop
  | node spec => g.find? spec.name = none
  | edge src output dst input => g.Fits ⟨src, dst, .data output input⟩
  | control src dst => g.Fits ⟨src, dst, .control⟩

/-- The number `k` and the graph `h` that a call gives: one more node or one more edge, under the
next number, and all others as they were. -/
def Adds (g : Graph) (k : Nat) (h : Graph) : Call → Prop
  | node spec => k = g.nodes.size ∧ h.specs = g.specs.push spec ∧ h.edges = g.edges
  | edge src output dst input =>
    k = g.edges.size ∧ h.specs = g.specs ∧ h.edges = g.edges.push ⟨src, dst, .data output input⟩
  | control src dst =>
    k = g.edges.size ∧ h.specs = g.specs ∧ h.edges = g.edges.push ⟨src, dst, .control⟩

variable {g : Graph} {call : Call}

theorem callRun_of_allowed (h : call.Allowed g) :
    ∃ k next, call.run g = .ok k next ∧ call.Adds g k next := by
  cases call with
  | node spec =>
    exact ⟨_, _, Graph.addNode_of_fresh h, rfl, Graph.specs_withNode g spec, rfl⟩
  | edge src output dst input =>
    exact ⟨_, _, Graph.addEdge_of_fits h, rfl, Graph.specs_withEdge g _, rfl⟩
  | control src dst =>
    exact ⟨_, _, Graph.addControl_of_fits h, rfl, Graph.specs_withEdge g _, rfl⟩

theorem callRun_of_not_allowed (h : ¬ call.Allowed g) : ∃ error, call.run g = .error error g := by
  cases call with
  | node spec => exact ⟨_, Graph.addNode_of_taken h⟩
  | edge src output dst input =>
    rcases Graph.addEdge_cases g src output dst input with herror | ⟨hfits, -⟩
    · exact herror
    · exact absurd hfits h
  | control src dst =>
    rcases Graph.addControl_cases g src dst with herror | ⟨hfits, -⟩
    · exact herror
    · exact absurd hfits h

end Call

/-! ### Coherent graphs -/

namespace Graph

/-- The parts of a graph agree. Beside what makes it well formed: no two nodes share a name, a node
lists exactly the edges out of it and into it, with increasing numbers, and no two data edges bring
data to one slot of one node. -/
structure Coherent (g : Graph) : Prop extends WellFormed g where
  names : (g.nodes.toList.map (·.name)).Nodup
  out_increasing : ∀ i v, g.node? i = some v → v.outEdges.Pairwise (· < ·)
  mem_out : ∀ i v, g.node? i = some v → ∀ k, k ∈ v.outEdges ↔ ∃ e, g.edges[k]? = some e ∧ e.src = i
  in_increasing : ∀ i v, g.node? i = some v → v.inEdges.Pairwise (· < ·)
  mem_in : ∀ i v, g.node? i = some v → ∀ k, k ∈ v.inEdges ↔ ∃ e, g.edges[k]? = some e ∧ e.dst = i
  slot_once : ∀ (k k' j j' output output' i slot : Nat),
    g.edges[k]? = some ⟨j, i, .data output slot⟩ →
    g.edges[k']? = some ⟨j', i, .data output' slot⟩ → k = k'

theorem numbersWhere_increasing (g : Graph) (p : Edge → Bool) :
    (g.numbersWhere p).Pairwise (· < ·) :=
  List.pairwise_lt_range.filter _

namespace WellFormed

variable {g : Graph} (wf : g.WellFormed)
include wf

theorem names_nodup : (g.nodes.toList.map (·.name)).Nodup := by
  rw [List.nodup_iff_getElem?_ne_getElem?]
  intro i j hlt hj hsame
  rw [List.length_map, Array.length_toList] at hj
  obtain ⟨u, hu⟩ := exists_node? (hlt.trans hj)
  obtain ⟨v, hv⟩ := exists_node? hj
  have hname : u.name = v.name := by
    rw [node?] at hu hv
    simpa [hu, hv] using hsame
  have hij := wf.name_inj hu hv hname
  omega

/-- Of two edges at different numbers the earlier one is apart from the later one. -/
theorem edge_number_unique {k k' j j' output output' i slot : Nat}
    (hk : g.edges[k]? = some ⟨j, i, .data output slot⟩)
    (hk' : g.edges[k']? = some ⟨j', i, .data output' slot⟩) : k = k' := by
  have hapart : ∀ {k k' : Nat} {e e' : Edge}, g.edges[k]? = some e → g.edges[k']? = some e' →
      k < k' → Apart e e' := by
    intro k k' e e' he he' hlt
    obtain ⟨hsize, rfl⟩ := Array.getElem?_eq_some_iff.mp he
    obtain ⟨hsize', rfl⟩ := Array.getElem?_eq_some_iff.mp he'
    exact List.pairwise_iff_getElem.mp wf.slots k k' hsize hsize' hlt
  have henters : ∀ j output, (⟨j, i, .data output slot⟩ : Edge).enters slot = true :=
    fun j output => Edge.enters_iff.mpr ⟨output, rfl⟩
  rcases Nat.lt_trichotomy k k' with hlt | heq | hlt
  · exact absurd (henters j' output') (hapart hk hk' hlt rfl slot (henters j output))
  · exact heq
  · exact absurd (henters j output) (hapart hk' hk hlt rfl slot (henters j' output'))

theorem coherent : g.Coherent where
  toWellFormed := wf
  names := wf.names_nodup
  out_increasing i v hv := by
    rw [wf.outEdges i v hv]
    exact g.numbersWhere_increasing _
  mem_out i v hv k := by
    simp only [wf.outEdges i v hv, mem_numbersWhere, decide_eq_true_iff]
  in_increasing i v hv := by
    rw [wf.inEdges i v hv]
    exact g.numbersWhere_increasing _
  mem_in i v hv k := by
    simp only [wf.inEdges i v hv, mem_numbersWhere, decide_eq_true_iff]
  slot_once k k' j j' output output' i slot hk hk' := wf.edge_number_unique hk hk'

end WellFormed

/-- **Calls keep the representation of a graph.** Every graph that calls build is coherent, whether
the calls were carried out or refused. The next call is carried out exactly if it is allowed, and
then adds what it names; a call that is refused leaves the graph as it was. -/
theorem calls_keep_representation (calls : List Call) :
    (build calls).Coherent ∧ ∀ call : Call,
      ((∃ k next, call.run (build calls) = .ok k next) ↔ call.Allowed (build calls)) ∧
      (∀ k next, call.run (build calls) = .ok k next → call.Adds (build calls) k next) ∧
      ∀ error next, call.run (build calls) = .error error next → next = build calls := by
  have hbuilt : (build calls).Built := ⟨calls, rfl⟩
  refine ⟨hbuilt.wellFormed.coherent, fun call => ?_⟩
  by_cases hallowed : call.Allowed (build calls)
  · obtain ⟨k, next, hrun, hadds⟩ := Call.callRun_of_allowed hallowed
    rw [hrun]
    refine ⟨⟨fun _ => hallowed, fun _ => ⟨k, next, rfl⟩⟩, ?_, ?_⟩
    · rintro k' next' ⟨⟩
      exact hadds
    · rintro error next' ⟨⟩
  · obtain ⟨error, hrun⟩ := Call.callRun_of_not_allowed hallowed
    rw [hrun]
    refine ⟨⟨?_, fun h => absurd h hallowed⟩, ?_, ?_⟩
    · rintro ⟨k, next, ⟨⟩⟩
    · rintro k next ⟨⟩
    · rintro error' next ⟨⟩
      rfl

/-- Calls with a loop at one node and an edge at a far slot, between calls that are refused: a name
that is taken, a slot that is taken, an output that is not declared, a node that is not there. -/
def tangledCalls : List Call := [
  .node { name := "a", op := "Split", outputs := 2 },
  .node { name := "a", op := "Neg" },
  .edge 0 0 0 0, .edge 0 1 0 0, .edge 0 2 0 1, .control 0 0,
  .node { name := "b", op := "Neg" },
  .edge 0 1 1 3, .edge 0 0 2 0, .control 2 0]

theorem tangledCalls_kept :
    (build tangledCalls).edges = #[⟨0, 0, .data 0 0⟩, ⟨0, 0, .control⟩, ⟨0, 1, .data 1 3⟩] ∧
    (build tangledCalls).Coherent ∧
    (Call.edge 0 0 1 3).run (build tangledCalls) =
      .error (.invalid (.inputConnected "b" 3)) (build tangledCalls) ∧
    (Call.edge 0 0 1 2).Allowed (build tangledCalls) := by
  obtain ⟨hcoherent, hcall⟩ := calls_keep_representation tangledCalls
  have herror : ∃ next, (Call.edge 0 0 1 3).run (build tangledCalls) =
      .error (.invalid (.inputConnected "b" 3)) next := ⟨_, rfl⟩
  obtain ⟨next, hrun⟩ := herror
  obtain ⟨-, -, hrefused⟩ := hcall (.edge 0 0 1 3)
  refine ⟨by rfl, hcoherent, ?_, (hcall (.edge 0 0 1 2)).1.mp ⟨_, _, rfl⟩⟩
  rw [hrun, hrefused _ next hrun]

end Graph

end GraphLowering.Source
