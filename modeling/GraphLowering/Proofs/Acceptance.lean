import Mathlib
import GraphLowering.Proofs.Inputs

/-!
# The graphs that can be prepared

Preparing a graph orders it, takes it apart and looks at the positions of its arguments, in this
order. Each of the three can refuse the graph. So a graph is accepted exactly if it has no cycle, no
node that branches, and a position for each argument, and what is wrong with a refused one is
reported in the same order.

* `Node.IndexBelow`, `Node.IndexFault` — an argument with a position, and the ways to have none.
* `Partition.Splits` — the parts are disjoint, in the order of the graph, and hold all but the
  sentinels.
* `prepare_of_cycle`, `prepare_of_controlFlow`, `prepare_of_indexFault` — the three refusals.
* `prepare_accepts_iff` — which graphs are accepted, what their parts are, and which refusal comes
  first.
-/

namespace GraphLowering

open Source

/-! ### The positions of arguments -/

namespace Source.Node

variable {v : Node} {count : Nat}

/-- Attribute `index` is an integer that is not negative and below `count`. -/
def IndexBelow (v : Node) (count : Nat) : Prop :=
  ∃ index : Int, v.attr? "index" = some (.int index) ∧ 0 ≤ index ∧ index < count

/-- What is reported of a node without an `index` below `count`. -/
inductive IndexFault (v : Node) (count : Nat) : Error → Prop where
  | missing (h : v.attr? "index" = none) : IndexFault v count (.missingAttribute v.name "index")
  | kind {attr : Attribute} (h : v.attr? "index" = some attr) (hint : attr.int? = none) :
    IndexFault v count (.invalid (.attributeKind v.name "index" attr.kind "int"))
  | negative {index : Int} (h : v.attr? "index" = some (.int index)) (hneg : index < 0) :
    IndexFault v count (.invalid (.negativeIndex v.name index))
  | range {index : Nat} (h : v.attr? "index" = some (.int index)) (hle : count ≤ index) :
    IndexFault v count (.invalid (.argumentIndex v.name index count))

/-- An attribute `index` is an integer, or it is reported that it is not. -/
theorem int_index_cases (v : Node) (count : Nat) :
    (∃ index, v.attr? "index" = some (.int index) ∧ v.int "index" = .ok index) ∨
    ∃ error, v.int "index" = .error error ∧ v.IndexFault count error := by
  unfold Node.int attrOfKind attrOfKind?
  cases hattr : v.attr? "index" with
  | none => exact .inr ⟨_, rfl, .missing hattr⟩
  | some attr =>
    cases hint : attr.int? with
    | none =>
      simp only [hint]
      exact .inr ⟨_, rfl, .kind hattr hint⟩
    | some index =>
      simp only [hint]
      obtain rfl : attr = .int index := by
        cases attr with
        | int value => simpa [Attribute.int?] using hint
        | _ => simp [Attribute.int?] at hint
      exact .inl ⟨index, rfl, rfl⟩

/-- A node has a position, which is its attribute `index`, or it is reported why it has none. -/
theorem position_cases (v : Node) (count : Nat) :
    (∃ k : Nat, v.attr? "index" = some (.int k) ∧ position v = .ok k) ∨
    ∃ error, position v = .error error ∧ v.IndexFault count error := by
  unfold position
  obtain ⟨index, hattr, hint⟩ | ⟨error, herror, hfault⟩ := v.int_index_cases count
  · rw [hint, except_ok_bind]
    by_cases hneg : index < 0
    · rw [if_pos hneg]
      exact .inr ⟨_, rfl, .negative hattr hneg⟩
    · rw [if_neg hneg]
      have hnat : (index.toNat : Int) = index := Int.toNat_of_nonneg (Int.not_lt.mp hneg)
      exact .inl ⟨index.toNat, by rw [hnat, hattr], rfl⟩
  · rw [herror]
    exact .inr ⟨error, rfl, hfault⟩

theorem IndexFault.not_indexBelow {error : Error} (h : v.IndexFault count error) :
    ¬ v.IndexBelow count := by
  rintro ⟨index, hindex, hnonneg, hlt⟩
  cases h with
  | missing hattr =>
    rw [hattr] at hindex
    cases hindex
  | kind hattr hint =>
    rw [hattr] at hindex
    cases hindex
    cases hint
  | negative hattr hneg =>
    rw [hattr] at hindex
    cases hindex
    omega
  | range hattr hle =>
    rw [hattr] at hindex
    cases hindex
    omega

theorem indexBelow_iff : v.IndexBelow count ↔ ∃ k, position v = .ok k ∧ k < count := by
  obtain ⟨k, hattr, hposition⟩ | ⟨error, herror, hfault⟩ := v.position_cases count
  · rw [IndexBelow, hattr, hposition]
    constructor
    · rintro ⟨_, ⟨⟩, -, hlt⟩
      exact ⟨k, rfl, by omega⟩
    · rintro ⟨_, ⟨⟩, hlt⟩
      exact ⟨k, rfl, by omega, by omega⟩
  · rw [herror]
    constructor
    · intro hbelow
      exact absurd hbelow hfault.not_indexBelow
    · rintro ⟨_, ⟨⟩, -⟩

end Source.Node

section Positions

variable {g : Graph} {count : Nat}

/-- An argument is given its position, or it is reported that it has none below the number of
arguments. -/
theorem positioned_error {i : Nat} {v : Node} {error : Error} (hv : g.node? i = some v)
    (h : positioned g count i = .error error) : v.IndexFault count error := by
  rw [positioned, Graph.node_of_some hv, except_ok_bind] at h
  obtain ⟨k, hattr, hposition⟩ | ⟨error', herror, hfault⟩ := v.position_cases count
  · rw [hposition, except_ok_bind] at h
    by_cases hle : count ≤ k
    · rw [if_pos hle] at h
      cases h
      exact .range hattr hle
    · rw [if_neg hle] at h
      cases h
  · rw [herror] at h
    cases h
    exact hfault

theorem staticFlags_error {params : List Nat} {role : Node → Prop}
    (hnodes : ∀ i ∈ params, ∃ v, g.node? i = some v ∧ role v) {error : Error}
    (h : staticFlags g params = .error error) :
    ∃ i v, g.node? i = some v ∧ role v ∧ v.IndexFault params.length error := by
  obtain h | ⟨_, -, h⟩ := except_bind_eq_error.mp h
  · obtain ⟨i, hi, herror⟩ := except_mapM_error h
    obtain ⟨v, hv, hrole⟩ := hnodes i hi
    exact ⟨i, v, hv, hrole, positioned_error hv herror⟩
  · cases h

theorem Source.Graph.length_places (g : Graph) (role : Node → Bool) :
    (g.places role).length = g.nodes.toList.countP role := by
  rw [← Graph.length_filter_range, Graph.places, Array.length_toList]
  simp only [Array.getElem?_toList]
  rfl

end Positions

/-! ### The parts of an order -/

/-- An order of the nodes is split into parts: each part is in the order and holds the nodes of its
role, no two parts share a node, and together they hold every node but the sentinels once. -/
structure Partition.Splits (g : Graph) (order : List Nat) (parts : Partition) : Prop where
  params : parts.params.Sublist order
  returns : parts.returns.Sublist order
  ops : parts.ops.Sublist order
  params_role : ∀ i ∈ parts.params, ∃ v, g.node? i = some v ∧ v.op = "_Arg"
  returns_role : ∀ i ∈ parts.returns, ∃ v, g.node? i = some v ∧ v.op = "_Retval"
  ops_role : ∀ i ∈ parts.ops, ∃ v, g.node? i = some v ∧ v.op ≠ "_Arg" ∧ v.op ≠ "_Retval"
  params_returns : parts.params.Disjoint parts.returns
  params_ops : parts.params.Disjoint parts.ops
  returns_ops : parts.returns.Disjoint parts.ops
  once : (parts.params ++ parts.returns ++ parts.ops).Perm (g.places fun v => !v.isSentinel)

namespace Partition

variable {g : Graph} {order : List Nat}

/-- Nodes of roles that exclude each other make parts that share no node. -/
theorem disjoint_of_roles {p q : Node → Bool} (h : ∀ v, p v = true → ¬ q v = true) :
    (order.filter (g.is p)).Disjoint (order.filter (g.is q)) := by
  intro i hp hq
  obtain ⟨v, hv, hpv⟩ := Graph.is_iff.mp (List.mem_filter.mp hp).2
  obtain ⟨u, hu, hqu⟩ := Graph.is_iff.mp (List.mem_filter.mp hq).2
  obtain rfl : v = u := Option.some.inj (hv.symm.trans hu)
  exact h v hpv hqu

theorem byRole_disjoint (g : Graph) (order : List Nat) :
    (byRole g order).params.Disjoint (byRole g order).returns ∧
    (byRole g order).params.Disjoint (byRole g order).ops ∧
    (byRole g order).returns.Disjoint (byRole g order).ops := by
  refine ⟨disjoint_of_roles ?_, disjoint_of_roles ?_, disjoint_of_roles ?_⟩
  · intro v ha
    exact Node.not_isReturn_of_isArgument ha
  · intro v ha ho
    exact (Node.isOrdinary_iff.mp ho).2.1 ha
  · intro v hr ho
    exact (Node.isOrdinary_iff.mp ho).2.2 hr

/-- Each node that is not a sentinel has one of the three roles, so it is in one of the parts. -/
theorem byRole_perm (hperm : order.Perm (List.range g.nodes.size)) :
    ((byRole g order).params ++ (byRole g order).returns ++ (byRole g order).ops).Perm
      (g.places fun v => !v.isSentinel) := by
  have hnodup : order.Nodup := hperm.nodup_iff.mpr List.nodup_range
  obtain ⟨hreturns, hops, hops'⟩ := byRole_disjoint g order
  have hparts : ((byRole g order).params ++ (byRole g order).returns ++
      (byRole g order).ops).Nodup :=
    ((hnodup.filter _).append (hnodup.filter _) hreturns).append (hnodup.filter _)
      (List.disjoint_append_left.mpr ⟨hops, hops'⟩)
  refine (List.perm_ext_iff_of_nodup hparts (g.places_nodup _)).mpr fun i => ?_
  have hmem : ∀ role : Node → Bool, i ∈ order.filter (g.is role) ↔
      ∃ v, g.node? i = some v ∧ role v = true := by
    intro role
    rw [List.mem_filter, Graph.is_iff, hperm.mem_iff, List.mem_range]
    constructor
    · exact And.right
    · rintro ⟨v, hv, hrole⟩
      exact ⟨Graph.node?_lt hv, v, hv, hrole⟩
  simp only [byRole, List.mem_append, hmem, Graph.mem_places, Graph.is_iff]
  constructor
  · rintro ((⟨v, hv, ha⟩ | ⟨v, hv, hr⟩) | ⟨v, hv, ho⟩)
    · exact ⟨v, hv, by simpa using Node.not_isSentinel_of_isArgument ha⟩
    · exact ⟨v, hv, by simpa using Node.not_isSentinel_of_isReturn hr⟩
    · exact ⟨v, hv, by simpa using (Node.isOrdinary_iff.mp ho).1⟩
  · rintro ⟨v, hv, hs⟩
    obtain hsentinel | harg | hret | hordinary := v.role_cases
    · simp [hsentinel] at hs
    · exact .inl (.inl ⟨v, hv, harg⟩)
    · exact .inl (.inr ⟨v, hv, hret⟩)
    · exact .inr ⟨v, hv, hordinary⟩

theorem byRole_splits (hperm : order.Perm (List.range g.nodes.size)) :
    (byRole g order).Splits g order := by
  obtain ⟨hreturns, hops, hops'⟩ := byRole_disjoint g order
  refine ⟨List.filter_sublist, List.filter_sublist, List.filter_sublist, ?_, ?_, ?_, hreturns,
    hops, hops', byRole_perm hperm⟩
  · intro i hi
    obtain ⟨v, hv, ha⟩ := Graph.is_iff.mp (List.mem_filter.mp hi).2
    exact ⟨v, hv, Node.isArgument_iff.mp ha⟩
  · intro i hi
    obtain ⟨v, hv, hr⟩ := Graph.is_iff.mp (List.mem_filter.mp hi).2
    exact ⟨v, hv, Node.isReturn_iff.mp hr⟩
  · intro i hi
    obtain ⟨v, hv, ho⟩ := Graph.is_iff.mp (List.mem_filter.mp hi).2
    obtain ⟨-, harg, hret⟩ := Node.isOrdinary_iff.mp ho
    exact ⟨v, hv, mt Node.isArgument_iff.mpr harg, mt Node.isReturn_iff.mpr hret⟩

end Partition

/-! ### What is refused, and in which order -/

section Refusals

variable {g : Graph} (wf : g.WellFormed)
include wf

/-- A cycle is reported before all else. -/
theorem prepare_of_cycle (h : ¬ g.Acyclic) : ∃ error, prepare g = .error error ∧
    g.NamesCycle error := by
  obtain ⟨order, horder, -⟩ | ⟨error, herror, hcycle⟩ := Graph.order_cases wf
  · exact absurd (Graph.acyclic_of_order wf horder) h
  · exact ⟨error, by rw [prepare, herror]; rfl, hcycle⟩

/-- In a graph without a cycle a node that branches is reported before the positions of the
arguments. -/
theorem prepare_of_controlFlow (hacyclic : g.Acyclic) {i : Nat} {v : Node}
    (hv : g.node? i = some v) (hflow : v.isControlFlow = true) :
    ∃ j u, g.node? j = some u ∧ u.isControlFlow = true ∧
      prepare g = .error (.controlFlow u.name u.op) := by
  obtain ⟨order, horder⟩ := hacyclic.order wf
  obtain ⟨hperm, -⟩ := Graph.order_spec wf horder
  obtain ⟨-, hcalm⟩ | ⟨j, -, u, hu, hflow', herror⟩ :=
    Partition.of_cases (exists_node?_of_perm hperm)
  · have hi : i ∈ order := hperm.mem_iff.mpr (List.mem_range.mpr (Graph.node?_lt hv))
    exact absurd (Graph.is_iff.mpr ⟨v, hv, hflow⟩) (hcalm i hi)
  · refine ⟨j, u, hu, hflow', ?_⟩
    rw [prepare, horder, except_ok_bind, herror]
    rfl

/-- In a graph without a cycle and without a node that branches an argument without a position is
reported. -/
theorem prepare_of_indexFault (hacyclic : g.Acyclic)
    (hcalm : ∀ i v, g.node? i = some v → ¬ v.isControlFlow = true) {i : Nat} {v : Node}
    (hv : g.node? i = some v) (harg : v.isArgument = true)
    (hbad : ¬ v.IndexBelow (g.nodes.toList.countP (·.isArgument))) :
    ∃ j u error, g.node? j = some u ∧ u.isArgument = true ∧
      u.IndexFault (g.nodes.toList.countP (·.isArgument)) error ∧ prepare g = .error error := by
  obtain ⟨order, horder⟩ := hacyclic.order wf
  rw [← g.length_places, Node.indexBelow_iff] at hbad
  cases hprepare : prepare g with
  | ok c => exact absurd (((exists_prepare_iff wf horder).mp ⟨c, hprepare⟩).2 i v hv harg) hbad
  | error error =>
    obtain ⟨hperm, -⟩ := Graph.order_spec wf horder
    obtain ⟨hparts, -⟩ | ⟨j, -, u, hu, hflow, -⟩ :=
      Partition.of_cases (exists_node?_of_perm hperm)
    -- the order and the parts are there, so it is a flag that could not be set
    · rw [prepare, horder, except_ok_bind, hparts, except_ok_bind] at hprepare
      obtain hflags | ⟨_, -, h⟩ := except_bind_eq_error.mp hprepare
      · have hlength : (Partition.byRole g order).params.length =
            g.nodes.toList.countP (·.isArgument) :=
          (hperm.filter _).length_eq.trans (g.length_places _)
        have hmem : ∀ j ∈ (Partition.byRole g order).params,
            ∃ u, g.node? j = some u ∧ u.isArgument = true := fun j hj =>
          Graph.is_iff.mp (List.mem_filter.mp hj).2
        obtain ⟨j, u, hu, harg', hfault⟩ := staticFlags_error hmem hflags
        exact ⟨j, u, error, hu, harg', hlength ▸ hfault, rfl⟩
      · cases h
    · exact absurd hflow (hcalm j u hu)

/-- The parts of a graph that has been prepared. -/
theorem splits_of_prepare {c : Compiled} (h : prepare g = .ok c) :
    c.graph = g ∧ ∃ order, g.order = .ok order ∧ c.parts.Splits g order := by
  obtain ⟨hgraph, order, horder, hparts, -⟩ := prepare_eq_ok h
  obtain ⟨hperm, -⟩ := Graph.order_spec wf horder
  refine ⟨hgraph, order, horder, ?_⟩
  obtain ⟨hby, -⟩ | ⟨_, -, _, -, -, herror⟩ := Partition.of_cases (exists_node?_of_perm hperm)
  · rw [Except.ok.inj (hparts.symm.trans hby)]
    exact Partition.byRole_splits hperm
  · exact absurd (hparts.symm.trans herror) (by simp)

end Refusals

/-- **Preparing accepts exactly the graphs without a cycle, without a node that branches, and with a
position for each argument.** The parts of an accepted graph split its order. Of a refused graph a
cycle is reported first, then a node that branches, then an argument without a position. -/
theorem prepare_accepts_iff {g : Graph} (hbuilt : g.Built) :
    ((∃ c, prepare g = .ok c) ↔ g.Acyclic ∧
      (∀ i v, g.node? i = some v → v.op ∉ controlFlowOps) ∧
      ∀ i v, g.node? i = some v → v.op = "_Arg" →
        v.IndexBelow (g.nodes.toList.countP (·.op = "_Arg"))) ∧
    (∀ c, prepare g = .ok c → c.graph = g ∧
      ∃ order, g.order = .ok order ∧ c.parts.Splits g order) ∧
    (¬ g.Acyclic → ∃ error, prepare g = .error error ∧ g.NamesCycle error) ∧
    (g.Acyclic → ∀ i v, g.node? i = some v → v.op ∈ controlFlowOps →
      ∃ j u, g.node? j = some u ∧ u.op ∈ controlFlowOps ∧
        prepare g = .error (.controlFlow u.name u.op)) ∧
    (g.Acyclic → (∀ i v, g.node? i = some v → v.op ∉ controlFlowOps) →
      ∀ i v, g.node? i = some v → v.op = "_Arg" →
        ¬ v.IndexBelow (g.nodes.toList.countP (·.op = "_Arg")) →
        ∃ j u error, g.node? j = some u ∧ u.op = "_Arg" ∧
          u.IndexFault (g.nodes.toList.countP (·.op = "_Arg")) error ∧
          prepare g = .error error) := by
  have wf := hbuilt.wellFormed
  have hflow : ∀ v : Node, v.op ∈ controlFlowOps ↔ v.isControlFlow = true := by
    intro v
    rw [Node.isControlFlow, List.contains_iff_mem]
  have hcount : g.nodes.toList.countP (·.op = "_Arg") = g.nodes.toList.countP (·.isArgument) := rfl
  rw [hcount]
  simp only [hflow, ← Node.isArgument_iff]
  refine ⟨?_, fun c hc => splits_of_prepare wf hc, prepare_of_cycle wf,
    fun hacyclic i v hv h => prepare_of_controlFlow wf hacyclic hv h,
    fun hacyclic hcalm i v hv harg hbad => prepare_of_indexFault wf hacyclic hcalm hv harg hbad⟩
  constructor
  · rintro ⟨c, hc⟩
    obtain ⟨-, order, horder, -⟩ := prepare_eq_ok hc
    obtain ⟨hcalm, hposition⟩ := (exists_prepare_iff wf horder).mp ⟨c, hc⟩
    refine ⟨Graph.acyclic_of_order wf horder, ?_, ?_⟩
    · intro i v hv h
      exact hcalm i (Graph.is_iff.mpr ⟨v, hv, h⟩)
    · intro i v hv harg
      rw [Node.indexBelow_iff, ← g.length_places]
      exact hposition i v hv harg
  · rintro ⟨hacyclic, hcalm, hposition⟩
    obtain ⟨order, horder⟩ := hacyclic.order wf
    refine (exists_prepare_iff wf horder).mpr ⟨?_, ?_⟩
    · intro i hi
      obtain ⟨v, hv, h⟩ := Graph.is_iff.mp hi
      exact hcalm i v hv h
    · intro i v hv harg
      have hbelow := hposition i v hv harg
      rw [Node.indexBelow_iff, ← g.length_places] at hbelow
      exact hbelow

/-- An argument that asks for the second position of one. -/
def lateArgument : List Call := [
  .node { name := "_SOURCE", op := "_SOURCE", outputs := 0 },
  .node { name := "late", op := "_Arg", attrs := NameTable.empty.insert "index" (.int 1) },
  .control 0 1]

/-- A node that branches on the argument. -/
def lateBranch : List Call := lateArgument ++ [
  .node { name := "branch", op := "Switch", outputs := 2 }, .edge 1 0 2 0]

/-- An argument for the first position, so that `late` has the second of two. -/
def bothArguments : List Call := lateArgument ++ [
  .node { name := "early", op := "_Arg", attrs := NameTable.empty.insert "index" (.int 0) }]

theorem lateArgument_verdicts :
    (∃ c, prepare (Graph.build bothArguments) = .ok c ∧ c.parts = ⟨[2, 1], [], []⟩ ∧
      ∃ order, (Graph.build bothArguments).order = .ok order ∧
        c.parts.Splits (Graph.build bothArguments) order) ∧
    (∃ error, prepare (Graph.build (lateBranch ++ [.control 2 1])) = .error error ∧
      (Graph.build (lateBranch ++ [.control 2 1])).NamesCycle error) ∧
    (∃ u : Node, u.op ∈ controlFlowOps ∧
      prepare (Graph.build lateBranch) = .error (.controlFlow u.name u.op)) ∧
    ∃ (u : Node) (error : Error), u.IndexFault 1 error ∧
      prepare (Graph.build lateArgument) = .error error := by
  have hcyclic : ¬ (Graph.build (lateBranch ++ [.control 2 1])).Acyclic := by
    have hedges : (Graph.build (lateBranch ++ [.control 2 1])).edges =
        #[⟨0, 1, .control⟩, ⟨1, 2, .data 0 0⟩, ⟨2, 1, .control⟩] := by rfl
    intro hacyclic
    refine hacyclic 1 (.tail (.single ⟨⟨1, 2, .data 0 0⟩, ?_, rfl, rfl⟩)
      ⟨⟨2, 1, .control⟩, ?_, rfl, rfl⟩)
    · simp [hedges]
    · simp [hedges]
  have hbranch : (Graph.build lateBranch).order = .ok [0, 1, 2] := by rfl
  have hlate : (Graph.build lateArgument).order = .ok [0, 1] := by rfl
  have hcalm : ∀ i v, (Graph.build lateArgument).node? i = some v → v.op ∉ controlFlowOps := by
    intro i v hv
    have hi : i < 2 := Graph.node?_lt hv
    interval_cases i
    · obtain rfl := Option.some.inj hv
      decide
    · obtain rfl := Option.some.inj hv
      decide
  have hbad : ∀ v, (Graph.build lateArgument).node? 1 = some v → ¬ v.IndexBelow 1 := by
    rintro v hv ⟨index, hindex, -, hlt⟩
    obtain rfl := Option.some.inj hv
    cases hindex
    omega
  refine ⟨?_, (prepare_accepts_iff ⟨_, rfl⟩).2.2.1 hcyclic, ?_, ?_⟩
  · have hprepare : prepare (Graph.build bothArguments) =
        .ok ⟨Graph.build bothArguments, ⟨[2, 1], [], []⟩, [false, false]⟩ := by rfl
    exact ⟨_, hprepare, rfl, ((prepare_accepts_iff ⟨_, rfl⟩).2.1 _ hprepare).2⟩
  · obtain ⟨-, u, -, hu⟩ := (prepare_accepts_iff ⟨_, rfl⟩).2.2.2.1
      (Graph.acyclic_of_order (Graph.Built.wellFormed ⟨_, rfl⟩) hbranch) 2 _ rfl (by decide)
    exact ⟨u, hu⟩
  · obtain ⟨-, u, error, -, -, hfault⟩ := (prepare_accepts_iff ⟨_, rfl⟩).2.2.2.2
      (Graph.acyclic_of_order (Graph.Built.wellFormed ⟨_, rfl⟩) hlate) hcalm 1 _ rfl rfl
      (hbad _ rfl)
    exact ⟨u, error, hfault⟩

end GraphLowering
