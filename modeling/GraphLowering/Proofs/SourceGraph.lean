import Mathlib
import GraphLowering.Source.Graph
import GraphLowering.Proofs.Step

/-!
# Graphs that calls build

A graph is private to its operations, so every graph a caller holds comes from the empty one by a
list of calls, some of which may have failed. What each call does is said once (`callRun_cases`): it
fails and leaves the graph alone, appends a node, or appends an edge. Every fact about such graphs
follows by induction over the two ways to grow (`Built.induct`).

* `Call`, `Graph.build`, `Graph.Built` — the graphs that calls build.
* `Graph.WellFormed` — the nodes, the edges and what the graph keeps beside them agree.
* `Built.wellFormed` — every graph that calls build is well formed.
* `WellFormed.inputEdge?_eq_some`, `WellFormed.mem_dataOutEdges` — what the readers of a well-formed
  graph find is given by the edges alone.
* `Graph.Carries` — a data edge from an output slot to an input slot.
-/

namespace GraphLowering.Source

namespace Edge

variable {e : Edge}

theorem isData_iff : e.isData = true ↔ ∃ output input, e.kind = .data output input := by
  unfold isData
  cases e.kind with
  | data output input => simp
  | control => simp

theorem enters_iff {slot : Nat} : e.enters slot = true ↔ ∃ output, e.kind = .data output slot := by
  unfold enters
  cases e.kind with
  | data output input => simp
  | control => simp

end Edge

theorem Node.attrOfKind_eq_ok {α : Type} {v : Node} {key expected : String}
    {read : Attribute → Option α} {value : α} :
    v.attrOfKind key expected read = .ok value ↔ (v.attr? key).bind read = some value := by
  unfold attrOfKind attrOfKind?
  cases v.attr? key with
  | none => simp
  | some attr => cases hread : read attr <;> simp [hread]

/-- A call that grows a graph. -/
inductive Call where
  | node (spec : NodeSpec)
  | edge (src output dst input : Nat)
  | control (src dst : Nat)
  deriving DecidableEq

/-- What a call does to a graph. -/
def Call.run : Call → Build Nat
  | node spec => addNode spec
  | edge src output dst input => addEdge src output dst input
  | control src dst => addControl src dst

namespace Graph

/-- The graph that a call leaves behind, whether it succeeds or fails. -/
def after (g : Graph) (call : Call) : Graph :=
  match call.run g with
  | .ok _ h => h
  | .error _ h => h

/-- The graph that a list of calls builds from the empty one. -/
def build (calls : List Call) : Graph := calls.foldl after {}

/-- Some list of calls builds the graph. -/
def Built (g : Graph) : Prop := ∃ calls, build calls = g

/-! ### What a call does -/

/-- The graph with one more node. -/
def withNode (g : Graph) (spec : NodeSpec) : Graph :=
  { g with
    nodes := g.nodes.push { spec with index := g.nodes.size }
    byName := g.byName.insert spec.name g.nodes.size }

/-- The graph with one more edge. -/
def withEdge (g : Graph) (e : Edge) : Graph :=
  { g with
    nodes := (g.nodes.modify e.src fun v =>
      { v with outEdges := v.outEdges ++ [g.edges.size] }).modify e.dst fun v =>
        { v with
          inEdges := v.inEdges ++ [g.edges.size]
          inputs := if e.isData then v.inputs + 1 else v.inputs }
    edges := g.edges.push e }

/-- An edge that may be added: its ends exist, and a data edge leads from a declared output to a
free input slot. -/
structure Fits (g : Graph) (e : Edge) : Prop where
  src : ∃ v, g.node? e.src = some v ∧
    ∀ output input, e.kind = .data output input → output < v.outputs
  dst : ∃ v, g.node? e.dst = some v ∧
    ∀ output input, e.kind = .data output input → g.inputEdge? v input = none

theorem addNode_eq (g : Graph) (spec : NodeSpec) :
    addNode spec g =
      if g.byName.contains spec.name then .error (.invalid (.duplicateNode spec.name)) g
      else .ok g.nodes.size (g.withNode spec) := by
  rw [addNode, Step.bind_of_ok (Step.get_apply g)]
  by_cases h : g.byName.contains spec.name
  · rw [if_pos h, if_pos h]
    rfl
  · rw [if_neg h, if_neg h]
    rfl

theorem nodeAt_of_some {g : Graph} {i : Nat} {v : Node} (h : g.node? i = some v) :
    nodeAt i g = .ok v g := by
  rw [nodeAt, Step.bind_of_ok (Step.get_apply g), h]
  rfl

theorem nodeAt_of_none {g : Graph} {i : Nat} (h : g.node? i = none) :
    nodeAt i g = .error (.invalid (.noNode i)) g := by
  rw [nodeAt, Step.bind_of_ok (Step.get_apply g), h]
  rfl

theorem addEdge_cases (g : Graph) (src output dst input : Nat) :
    (∃ error, addEdge src output dst input g = .error error g) ∨
      (g.Fits ⟨src, dst, .data output input⟩ ∧
        addEdge src output dst input g =
          .ok g.edges.size (g.withEdge ⟨src, dst, .data output input⟩)) := by
  cases hs : g.node? src with
  | none => exact .inl ⟨_, Step.bind_of_error (nodeAt_of_none hs)⟩
  | some producer =>
    rw [addEdge, Step.bind_of_ok (nodeAt_of_some hs)]
    cases hd : g.node? dst with
    | none => exact .inl ⟨_, Step.bind_of_error (nodeAt_of_none hd)⟩
    | some consumer =>
      rw [Step.bind_of_ok (nodeAt_of_some hd)]
      by_cases ho : producer.outputs ≤ output
      · rw [if_pos ho]
        exact .inl ⟨_, Step.bind_of_error (Step.throw_apply _ g)⟩
      · rw [if_neg ho]
        beta_reduce
        rw [Step.bind_of_ok (Step.get_apply g)]
        by_cases hi : (g.inputEdge? consumer input).isSome
        · rw [if_pos hi]
          exact .inl ⟨_, Step.bind_of_error (Step.throw_apply _ g)⟩
        · rw [if_neg hi]
          refine .inr ⟨⟨⟨producer, hs, ?_⟩, ⟨consumer, hd, ?_⟩⟩, rfl⟩
          · rintro _ _ ⟨⟩
            omega
          · rintro _ _ ⟨⟩
            simpa using hi

theorem addControl_cases (g : Graph) (src dst : Nat) :
    (∃ error, addControl src dst g = .error error g) ∨
      (g.Fits ⟨src, dst, .control⟩ ∧
        addControl src dst g = .ok g.edges.size (g.withEdge ⟨src, dst, .control⟩)) := by
  cases hs : g.node? src with
  | none => exact .inl ⟨_, Step.bind_of_error (Step.discard_of_error (nodeAt_of_none hs))⟩
  | some producer =>
    rw [addControl, Step.bind_of_ok (Step.discard_of_ok (nodeAt_of_some hs))]
    cases hd : g.node? dst with
    | none => exact .inl ⟨_, Step.bind_of_error (Step.discard_of_error (nodeAt_of_none hd))⟩
    | some consumer =>
      rw [Step.bind_of_ok (Step.discard_of_ok (nodeAt_of_some hd))]
      refine .inr ⟨⟨⟨producer, hs, ?_⟩, ⟨consumer, hd, ?_⟩⟩, rfl⟩
      · rintro _ _ ⟨⟩
      · rintro _ _ ⟨⟩

/-- A call fails and leaves the graph as it was, appends a node under a new name, or appends an edge
that fits. -/
theorem callRun_cases (g : Graph) (call : Call) :
    (∃ error, call.run g = .error error g) ∨
      (∃ spec, g.find? spec.name = none ∧ call.run g = .ok g.nodes.size (g.withNode spec)) ∨
      ∃ e, g.Fits e ∧ call.run g = .ok g.edges.size (g.withEdge e) := by
  cases call with
  | node spec =>
    rw [Call.run, addNode_eq]
    by_cases h : g.byName.contains spec.name
    · rw [if_pos h]
      exact .inl ⟨_, rfl⟩
    · rw [if_neg h]
      refine .inr (.inl ⟨spec, ?_, rfl⟩)
      simpa [NameTable.contains, find?] using h
  | edge src output dst input =>
    rcases addEdge_cases g src output dst input with h | h
    · exact .inl h
    · exact .inr (.inr ⟨_, h⟩)
  | control src dst =>
    rcases addControl_cases g src dst with h | h
    · exact .inl h
    · exact .inr (.inr ⟨_, h⟩)

theorem after_cases (g : Graph) (call : Call) :
    g.after call = g ∨ (∃ spec, g.find? spec.name = none ∧ g.after call = g.withNode spec) ∨
      ∃ e, g.Fits e ∧ g.after call = g.withEdge e := by
  rcases callRun_cases g call with ⟨error, h⟩ | ⟨spec, hf, h⟩ | ⟨e, hf, h⟩
  · exact .inl (by rw [after, h])
  · exact .inr (.inl ⟨spec, hf, by rw [after, h]⟩)
  · exact .inr (.inr ⟨e, hf, by rw [after, h]⟩)

/-- What holds of the empty graph and is kept when a node or an edge is appended holds of every
graph that calls build. -/
theorem Built.induct {P : Graph → Prop} (empty : P {})
    (node : ∀ g spec, g.find? spec.name = none → P g → P (g.withNode spec))
    (edge : ∀ g e, g.Fits e → P g → P (g.withEdge e)) {g : Graph} (h : g.Built) : P g := by
  obtain ⟨calls, rfl⟩ := h
  induction calls using List.reverseRecOn with
  | nil => exact empty
  | append_singleton calls call ih =>
    rw [build, List.foldl_append]
    show P ((build calls).after call)
    rcases after_cases (build calls) call with h | ⟨spec, hf, h⟩ | ⟨e, hf, h⟩
    · rw [h]; exact ih
    · rw [h]; exact node _ spec hf ih
    · rw [h]; exact edge _ e hf ih

/-! ### What a call does to the parts of a graph -/

/-- The numbers of the edges with a property, in increasing order. -/
def numbersWhere (g : Graph) (p : Edge → Bool) : List Nat :=
  (List.range g.edges.size).filter fun k => g.edges[k]?.any p

theorem numbersWhere_withEdge (g : Graph) (e : Edge) (p : Edge → Bool) :
    (g.withEdge e).numbersWhere p = g.numbersWhere p ++ if p e then [g.edges.size] else [] := by
  have hlast : ((g.withEdge e).edges[g.edges.size]?).any p = p e := by simp [withEdge]
  rw [numbersWhere, show (g.withEdge e).edges.size = g.edges.size + 1 by simp [withEdge],
    List.range_succ, List.filter_append, List.filter_singleton, hlast, Bool.cond_eq_ite]
  congr 1
  apply List.filter_congr
  intro k hk
  have hne : k ≠ g.edges.size := by
    have hlt := List.mem_range.mp hk
    omega
  simp [withEdge, Array.getElem?_push, hne]

theorem mem_numbersWhere {g : Graph} {p : Edge → Bool} {k : Nat} :
    k ∈ g.numbersWhere p ↔ ∃ e, g.edges[k]? = some e ∧ p e := by
  rw [numbersWhere, List.mem_filter, List.mem_range]
  constructor
  · rintro ⟨hlt, hp⟩
    rw [Array.getElem?_eq_getElem hlt] at hp
    exact ⟨_, Array.getElem?_eq_getElem hlt, hp⟩
  · rintro ⟨e, he, hp⟩
    exact ⟨(Array.getElem?_eq_some_iff.mp he).1, by rw [he]; exact hp⟩

theorem mem_edgesOf_numbersWhere {g : Graph} {p : Edge → Bool} {e : Edge} :
    e ∈ g.edgesOf (g.numbersWhere p) ↔ e ∈ g.edges ∧ p e := by
  simp only [edgesOf, List.mem_filterMap, mem_numbersWhere]
  constructor
  · rintro ⟨k, ⟨e', he', hp⟩, hk⟩
    rw [he'] at hk
    cases hk
    exact ⟨Array.mem_of_getElem? he', hp⟩
  · rintro ⟨hmem, hp⟩
    obtain ⟨k, hk⟩ := Array.mem_iff_getElem?.mp hmem
    exact ⟨k, ⟨e, hk, hp⟩, hk⟩

theorem node?_withNode (g : Graph) (spec : NodeSpec) (i : Nat) :
    (g.withNode spec).node? i =
      if i = g.nodes.size then some { spec with index := g.nodes.size } else g.node? i := by
  rw [node?, withNode, Array.getElem?_push]
  rfl

theorem node?_withEdge (g : Graph) (e : Edge) (i : Nat) :
    (g.withEdge e).node? i = (g.node? i).map fun v =>
      { v with
        outEdges := if e.src = i then v.outEdges ++ [g.edges.size] else v.outEdges
        inEdges := if e.dst = i then v.inEdges ++ [g.edges.size] else v.inEdges
        inputs := if e.dst = i ∧ e.isData then v.inputs + 1 else v.inputs } := by
  simp only [node?, withEdge, Array.getElem?_modify]
  by_cases hs : e.src = i <;> by_cases hd : e.dst = i <;> cases g.nodes[i]? <;> simp [hs, hd]

theorem node?_lt {g : Graph} {i : Nat} {v : Node} (h : g.node? i = some v) : i < g.nodes.size :=
  (Array.getElem?_eq_some_iff.mp h).1

theorem exists_node? {g : Graph} {i : Nat} (h : i < g.nodes.size) : ∃ v, g.node? i = some v :=
  ⟨_, Array.getElem?_eq_getElem h⟩

/-- The size of the arrays after an edge. -/
theorem nodes_size_withEdge (g : Graph) (e : Edge) :
    (g.withEdge e).nodes.size = g.nodes.size := by
  simp [withEdge]

theorem mem_edges_withEdge {g : Graph} {e e' : Edge} :
    e' ∈ (g.withEdge e).edges ↔ e' ∈ g.edges ∨ e' = e := by
  simp [withEdge]

/-! ### Well-formed graphs -/

/-- Two edges that do not enter one slot of one node. -/
def Apart (e e' : Edge) : Prop := e.dst = e'.dst → ∀ slot, e.enters slot → ¬ e'.enters slot

instance : Std.Symm Apart where
  symm _ _ h hdst slot ha hb := h hdst.symm slot hb ha

/-- The nodes, the edges and what the graph keeps beside them agree. -/
structure WellFormed (g : Graph) : Prop where
  /-- A node knows its place. -/
  index : ∀ i v, g.node? i = some v → v.index = i
  /-- The name table finds every node by its name, and nothing else. -/
  find : ∀ name i, g.find? name = some i ↔ ∃ v, g.node? i = some v ∧ v.name = name
  /-- Both ends of an edge are nodes. -/
  ends : ∀ e ∈ g.edges, e.src < g.nodes.size ∧ e.dst < g.nodes.size
  /-- A node lists the edges out of it, in the order of their insertion. -/
  outEdges : ∀ i v, g.node? i = some v → v.outEdges = g.numbersWhere (·.src = i)
  /-- A node lists the edges into it, in the order of their insertion. -/
  inEdges : ∀ i v, g.node? i = some v → v.inEdges = g.numbersWhere (·.dst = i)
  /-- A data edge leaves from an output that its producer declares. -/
  outputs : ∀ e ∈ g.edges, ∀ output input, e.kind = .data output input →
    ∀ v, g.node? e.src = some v → output < v.outputs
  /-- No two data edges enter the same slot of a node. -/
  slots : g.edges.toList.Pairwise Apart
  /-- A node counts the data edges into it. -/
  inputs : ∀ i v, g.node? i = some v →
    v.inputs = g.edges.toList.countP fun e => e.isData && e.dst = i

theorem wellFormed_empty : WellFormed {} where
  index := by simp [node?]
  find := by simp [node?, find?]
  ends := by simp
  outEdges := by simp [node?]
  inEdges := by simp [node?]
  outputs := by simp
  slots := by simp
  inputs := by simp [node?]

theorem WellFormed.withNode {g : Graph} (wf : g.WellFormed) {spec : NodeSpec}
    (hnew : g.find? spec.name = none) : (g.withNode spec).WellFormed := by
  have hnone : ∀ p : Edge → Bool, (∀ e ∈ g.edges, ¬ p e) → g.numbersWhere p = [] := by
    intro p hp
    refine List.filter_eq_nil_iff.mpr fun k _ => ?_
    cases hk : g.edges[k]? with
    | none => simp
    | some e => simpa using hp e (Array.mem_of_getElem? hk)
  -- No edge reaches the new place yet.
  have hsrc : ∀ e ∈ g.edges, e.src ≠ g.nodes.size := fun e he => by have := wf.ends e he; omega
  have hdst : ∀ e ∈ g.edges, e.dst ≠ g.nodes.size := fun e he => by have := wf.ends e he; omega
  constructor
  case index =>
    intro i v h
    rw [node?_withNode] at h
    split at h
    · cases h
      symm; assumption
    · exact wf.index i v h
  case find =>
    intro name i
    rw [show (g.withNode spec).find? name =
      if name = spec.name then some g.nodes.size else g.find? name from NameTable.get?_insert ..]
    simp only [node?_withNode]
    by_cases hn : name = spec.name
    · subst hn
      rw [if_pos rfl, Option.some.injEq]
      constructor
      · rintro rfl
        exact ⟨_, if_pos rfl, rfl⟩
      · rintro ⟨v, hv, hname⟩
        split at hv
        · symm; assumption
        · rw [(wf.find _ i).mpr ⟨v, hv, hname⟩] at hnew
          cases hnew
    · rw [if_neg hn, wf.find name i]
      constructor
      · rintro ⟨v, hv, hname⟩
        have hlt := node?_lt hv
        exact ⟨v, by rw [if_neg (by omega), hv], hname⟩
      · rintro ⟨v, hv, hname⟩
        split at hv
        · cases hv
          exact absurd hname.symm hn
        · exact ⟨v, hv, hname⟩
  case ends =>
    intro e he
    have := wf.ends e he
    simp only [Graph.withNode, Array.size_push]
    omega
  case outEdges =>
    intro i v h
    rw [node?_withNode] at h
    split at h
    · cases h
      rename_i hi
      exact (hnone _ fun e he => by simpa [hi] using hsrc e he).symm
    · exact wf.outEdges i v h
  case inEdges =>
    intro i v h
    rw [node?_withNode] at h
    split at h
    · cases h
      rename_i hi
      exact (hnone _ fun e he => by simpa [hi] using hdst e he).symm
    · exact wf.inEdges i v h
  case outputs =>
    intro e he output input hk v h
    rw [node?_withNode, if_neg (hsrc e he)] at h
    exact wf.outputs e he output input hk v h
  case slots => exact wf.slots
  case inputs =>
    intro i v h
    rw [node?_withNode] at h
    split at h
    · cases h
      rename_i hi
      refine (List.countP_eq_zero.mpr fun e he => ?_).symm
      simpa [hi] using fun _ => hdst e (Array.mem_toList_iff.mp he)
    · exact wf.inputs i v h

theorem WellFormed.mem_inEdges {g : Graph} (wf : g.WellFormed) {i : Nat} {v : Node} {e : Edge}
    (hv : g.node? i = some v) : e ∈ g.edgesOf v.inEdges ↔ e ∈ g.edges ∧ e.dst = i := by
  rw [wf.inEdges i v hv, mem_edgesOf_numbersWhere, decide_eq_true_iff]

theorem WellFormed.withEdge {g : Graph} (wf : g.WellFormed) {e : Edge} (fits : g.Fits e) :
    (g.withEdge e).WellFormed := by
  obtain ⟨⟨producer, hp, hout⟩, consumer, hc, hfree⟩ := fits
  constructor
  case index =>
    intro i v h
    rw [node?_withEdge] at h
    obtain ⟨u, hu, rfl⟩ := Option.map_eq_some_iff.mp h
    exact wf.index i u hu
  case find =>
    intro name i
    rw [show (g.withEdge e).find? name = g.find? name from rfl, wf.find name i, node?_withEdge]
    simp only [Option.map_eq_some_iff]
    constructor
    · rintro ⟨v, hv, hname⟩
      exact ⟨_, ⟨v, hv, rfl⟩, hname⟩
    · rintro ⟨_, ⟨v, hv, rfl⟩, hname⟩
      exact ⟨v, hv, hname⟩
  case ends =>
    intro e' he'
    rw [nodes_size_withEdge]
    rcases mem_edges_withEdge.mp he' with he' | rfl
    · exact wf.ends e' he'
    · exact ⟨node?_lt hp, node?_lt hc⟩
  case outEdges =>
    intro i v h
    rw [node?_withEdge] at h
    obtain ⟨u, hu, rfl⟩ := Option.map_eq_some_iff.mp h
    rw [numbersWhere_withEdge, ← wf.outEdges i u hu]
    by_cases hi : e.src = i <;> simp [hi]
  case inEdges =>
    intro i v h
    rw [node?_withEdge] at h
    obtain ⟨u, hu, rfl⟩ := Option.map_eq_some_iff.mp h
    rw [numbersWhere_withEdge, ← wf.inEdges i u hu]
    by_cases hi : e.dst = i <;> simp [hi]
  case outputs =>
    intro e' he' output input hk v h
    rw [node?_withEdge] at h
    obtain ⟨u, hu, rfl⟩ := Option.map_eq_some_iff.mp h
    rcases mem_edges_withEdge.mp he' with he' | rfl
    · exact wf.outputs e' he' output input hk u hu
    · rw [hp] at hu
      cases hu
      exact hout output input hk
  case slots =>
    rw [show (g.withEdge e).edges.toList = g.edges.toList ++ [e] by simp [Graph.withEdge],
      List.pairwise_append]
    refine ⟨wf.slots, List.pairwise_singleton _ _, fun e' he' _ hmem hdst slot henters => ?_⟩
    cases List.mem_singleton.mp hmem
    intro hnew
    -- The slot was free, so no earlier edge enters it.
    cases hk : e.kind with
    | control => simp [Edge.enters, hk] at hnew
    | data output input =>
      have hslot : input = slot := by simpa [Edge.enters, hk] using hnew
      subst hslot
      have hnone := List.find?_eq_none.mp (hfree output input hk) e'
        ((wf.mem_inEdges hc).mpr ⟨Array.mem_toList_iff.mp he', hdst⟩)
      exact hnone henters
  case inputs =>
    intro i v h
    rw [node?_withEdge] at h
    obtain ⟨u, hu, rfl⟩ := Option.map_eq_some_iff.mp h
    rw [show (g.withEdge e).edges.toList = g.edges.toList ++ [e] by simp [Graph.withEdge],
      List.countP_append, ← wf.inputs i u hu]
    by_cases hi : e.dst = i <;> cases hd : e.isData <;> simp [hi, hd]

/-- Every graph that calls build is well formed. -/
theorem Built.wellFormed {g : Graph} (h : g.Built) : g.WellFormed :=
  h.induct wellFormed_empty (fun _ _ hnew wf => wf.withNode hnew)
    fun _ _ fits wf => wf.withEdge fits

/-! ### Reading a well-formed graph -/

theorem WellFormed.name_inj {g : Graph} (wf : g.WellFormed) {i j : Nat} {u v : Node}
    (hu : g.node? i = some u) (hv : g.node? j = some v) (h : u.name = v.name) : i = j := by
  have hi := (wf.find u.name i).mpr ⟨u, hu, rfl⟩
  have hj := (wf.find u.name j).mpr ⟨v, hv, h.symm⟩
  rw [hi] at hj
  exact Option.some.inj hj

/-- Two data edges into one slot of a node are the same edge. -/
theorem WellFormed.edge_unique {g : Graph} (wf : g.WellFormed) {e e' : Edge} {slot : Nat}
    (he : e ∈ g.edges) (he' : e' ∈ g.edges) (hdst : e.dst = e'.dst) (hs : e.enters slot)
    (hs' : e'.enters slot) : e = e' := by
  by_contra hne
  exact wf.slots.forall (Array.mem_toList_iff.mpr he) (Array.mem_toList_iff.mpr he') hne hdst slot
    hs hs'

/-- The edge found at an input slot is the data edge into that slot. -/
theorem WellFormed.inputEdge?_eq_some {g : Graph} (wf : g.WellFormed) {i slot : Nat} {v : Node}
    {e : Edge} (hv : g.node? i = some v) :
    g.inputEdge? v slot = some e ↔ e ∈ g.edges ∧ e.dst = i ∧ e.enters slot := by
  constructor
  · intro h
    have hmem := (wf.mem_inEdges hv).mp (List.mem_of_find?_eq_some h)
    have henters := List.find?_some h
    exact ⟨hmem.1, hmem.2, henters⟩
  · rintro ⟨hmem, hdst, henters⟩
    have hin : e ∈ g.edgesOf v.inEdges := (wf.mem_inEdges hv).mpr ⟨hmem, hdst⟩
    cases hfind : g.inputEdge? v slot with
    | none => exact absurd henters (List.find?_eq_none.mp hfind e hin)
    | some e' =>
      have hmem' := (wf.mem_inEdges hv).mp (List.mem_of_find?_eq_some hfind)
      have henters' := List.find?_some hfind
      rw [wf.edge_unique hmem'.1 hmem (hmem'.2.trans hdst.symm) henters' henters]

/-- The data edges out of a node are those that start there. -/
theorem WellFormed.mem_dataOutEdges {g : Graph} (wf : g.WellFormed) {i : Nat} {v : Node} {e : Edge}
    (hv : g.node? i = some v) : e ∈ g.dataOutEdges v ↔ e ∈ g.edges ∧ e.src = i ∧ e.isData := by
  rw [dataOutEdges, wf.outEdges i v hv, List.mem_filter, mem_edgesOf_numbersWhere,
    decide_eq_true_iff, and_assoc]

/-! ### Data edges -/

section Carries

variable {g : Graph} {i slot : Nat} {v : Node}

/-- Data flows from an output slot of node `j` to an input slot of node `i`. -/
def Carries (g : Graph) (j output i slot : Nat) : Prop :=
  (⟨j, i, .data output slot⟩ : Edge) ∈ g.edges

theorem Carries.exists_producer (wf : g.WellFormed) {j output : Nat}
    (h : g.Carries j output i slot) : ∃ producer, g.node? j = some producer :=
  exists_node? (wf.ends _ h).1

/-- A node with one data input has one data edge into it. -/
theorem Carries.iff_of_inputs_eq_one (wf : g.WellFormed) (hv : g.node? i = some v)
    (hone : v.inputs = 1) {j output : Nat} (h : g.Carries j output i slot)
    (j' output' slot' : Nat) :
    g.Carries j' output' i slot' ↔ j' = j ∧ output' = output ∧ slot' = slot := by
  constructor
  · intro h'
    have hcount := wf.inputs i v hv
    rw [hone, List.countP_eq_length_filter] at hcount
    obtain ⟨e, he⟩ := List.length_eq_one_iff.mp hcount.symm
    have honly : ∀ j output slot, g.Carries j output i slot → ⟨j, i, .data output slot⟩ = e := by
      intro j output slot h
      have hmem : (⟨j, i, .data output slot⟩ : Edge) ∈ [e] := by
        rw [← he, List.mem_filter]
        exact ⟨Array.mem_toList_iff.mpr h, by simp [Edge.isData]⟩
      exact List.mem_singleton.mp hmem
    have hsame := (honly j' output' slot' h').trans (honly j output slot h).symm
    simpa using hsame
  · rintro ⟨rfl, rfl, rfl⟩
    exact h

theorem inputEdge?_of_carries (wf : g.WellFormed) (hv : g.node? i = some v) {j output : Nat}
    (h : g.Carries j output i slot) : g.inputEdge? v slot = some ⟨j, i, .data output slot⟩ :=
  (wf.inputEdge?_eq_some hv).mpr ⟨h, rfl, Edge.enters_iff.mpr ⟨output, rfl⟩⟩

/-- Either no data flows into an input slot, or the edge is found that brings it. -/
theorem inputEdge?_cases (wf : g.WellFormed) (hv : g.node? i = some v) (slot : Nat) :
    (g.inputEdge? v slot = none ∧ ∀ j output, ¬ g.Carries j output i slot) ∨
    ∃ j output, g.Carries j output i slot ∧
      g.inputEdge? v slot = some ⟨j, i, .data output slot⟩ := by
  cases hedge : g.inputEdge? v slot with
  | none =>
    refine .inl ⟨rfl, fun j output h => ?_⟩
    rw [inputEdge?_of_carries wf hv h] at hedge
    simp at hedge
  | some e =>
    obtain ⟨he, hdst, henters⟩ := (wf.inputEdge?_eq_some hv).mp hedge
    obtain ⟨output, hkind⟩ := Edge.enters_iff.mp henters
    obtain ⟨src, dst, kind⟩ := e
    obtain rfl : dst = i := hdst
    obtain rfl : kind = .data output slot := hkind
    exact .inr ⟨src, output, he, rfl⟩

end Carries

end Graph

end GraphLowering.Source
