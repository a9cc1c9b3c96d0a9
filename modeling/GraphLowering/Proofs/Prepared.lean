import Mathlib
import GraphLowering.Compile.Compiler
import GraphLowering.Proofs.SearchOrder

/-!
# Prepared graphs

What `prepare` has found out about a graph, said of the nodes and edges themselves:

* `Partition.of_cases` — the parts are the order filtered by role, or a node branches.
* `staticFlags_spec` — a position is flagged if an argument there feeds a slot that needs a value.
* `lt_length_staticFlags` — the positions for which there is a flag.
* `Compiled.Prepared` — the parts, their order and the flags of a prepared graph.
* `prepared_of_prepare`, `exists_prepare_iff` — what a prepared graph is, and which graphs can be
  prepared.
-/

namespace GraphLowering

open Source

namespace Source

/-- Whether the node is an op between the arguments and the results. -/
def Node.isOrdinary (v : Node) : Bool := !v.isSentinel && !v.isArgument && !v.isReturn

/-- Whether the node at a place has a property. -/
def Graph.is (g : Graph) (role : Node → Bool) (i : Nat) : Bool := (g.node? i).any role

namespace Graph

variable {g : Graph} {i : Nat} {v : Node}

theorem is_of_node? (role : Node → Bool) (h : g.node? i = some v) : g.is role i = role v := by
  rw [Graph.is, h, Option.any_some]

theorem is_iff {role : Node → Bool} :
    g.is role i = true ↔ ∃ v, g.node? i = some v ∧ role v = true := by
  rw [Graph.is, Option.any_eq_true]

theorem node_of_some (h : g.node? i = some v) : g.node i = .ok v := by
  rw [Graph.node, h]

theorem node_eq_ok : g.node i = .ok v ↔ g.node? i = some v := by
  rw [Graph.node]
  cases g.node? i with
  | none => simp
  | some u => simp

end Graph

namespace Node

variable {v : Node}

theorem isArgument_iff : v.isArgument = true ↔ v.op = "_Arg" := by
  rw [isArgument, decide_eq_true_eq]

theorem isReturn_iff : v.isReturn = true ↔ v.op = "_Retval" := by
  rw [isReturn, decide_eq_true_eq]

theorem isSentinel_iff : v.isSentinel = true ↔ v.op = "_SOURCE" ∨ v.op = "_SINK" := by
  rw [isSentinel, Bool.or_eq_true, decide_eq_true_eq, decide_eq_true_eq]

theorem isOrdinary_iff :
    v.isOrdinary = true ↔ ¬ v.isSentinel = true ∧ ¬ v.isArgument = true ∧ ¬ v.isReturn = true := by
  simp [isOrdinary, and_assoc]

/-- A node is a sentinel, an argument, a result or an op. -/
theorem role_cases (v : Node) :
    v.isSentinel = true ∨ v.isArgument = true ∨ v.isReturn = true ∨ v.isOrdinary = true := by
  rw [isOrdinary_iff]
  tauto

theorem not_isSentinel_of_isArgument (h : v.isArgument = true) : ¬ v.isSentinel = true := by
  rw [isArgument_iff] at h
  rw [isSentinel_iff, h]
  decide

theorem not_isSentinel_of_isReturn (h : v.isReturn = true) : ¬ v.isSentinel = true := by
  rw [isReturn_iff] at h
  rw [isSentinel_iff, h]
  decide

theorem not_isReturn_of_isArgument (h : v.isArgument = true) : ¬ v.isReturn = true := by
  rw [isArgument_iff] at h
  rw [isReturn_iff, h]
  decide

theorem not_isControlFlow_of_isSentinel (h : v.isSentinel = true) : ¬ v.isControlFlow = true := by
  rw [isSentinel_iff] at h
  rw [isControlFlow]
  obtain h | h := h
  · rw [h]
    decide
  · rw [h]
    decide

end Node

end Source

/-! ### The parts -/

namespace Partition

variable {g : Graph}

/-- The parts of an order: its nodes by their role. -/
def byRole (g : Graph) (order : List Nat) : Partition where
  params := order.filter (g.is Node.isArgument)
  returns := order.filter (g.is Node.isReturn)
  ops := order.filter (g.is Node.isOrdinary)

theorem byRole_cons_of_isSentinel {i : Nat} {v : Node} (hv : g.node? i = some v)
    (h : v.isSentinel = true) (order : List Nat) : byRole g (i :: order) = byRole g order := by
  have ha : ¬ v.isArgument = true := fun ha => Node.not_isSentinel_of_isArgument ha h
  have hr : ¬ v.isReturn = true := fun hr => Node.not_isSentinel_of_isReturn hr h
  have ho : ¬ v.isOrdinary = true := fun ho => (Node.isOrdinary_iff.mp ho).1 h
  simp [byRole, Graph.is_of_node? _ hv, ha, hr, ho]

theorem byRole_cons {i : Nat} {v : Node} (hv : g.node? i = some v) (h : ¬ v.isSentinel = true)
    (order : List Nat) : byRole g (i :: order) = (byRole g order).insert v i := by
  rw [insert]
  split
  case isTrue ha =>
    have hr := Node.not_isReturn_of_isArgument ha
    have ho : ¬ v.isOrdinary = true := fun ho => (Node.isOrdinary_iff.mp ho).2.1 ha
    simp [byRole, Graph.is_of_node? _ hv, ha, hr, ho]
  case isFalse ha =>
    split
    case isTrue hr =>
      have ho : ¬ v.isOrdinary = true := fun ho => (Node.isOrdinary_iff.mp ho).2.2 hr
      simp [byRole, Graph.is_of_node? _ hv, ha, hr, ho]
    case isFalse hr =>
      have ho : v.isOrdinary = true := Node.isOrdinary_iff.mpr ⟨h, ha, hr⟩
      simp [byRole, Graph.is_of_node? _ hv, ha, hr, ho]

/-- An order falls into its nodes by role, or one of them branches, loops or gates. -/
theorem of_cases {order : List Nat} (hnodes : ∀ i ∈ order, ∃ v, g.node? i = some v) :
    (of g order = .ok (byRole g order) ∧ ∀ i ∈ order, ¬ g.is Node.isControlFlow i = true) ∨
    ∃ i ∈ order, ∃ v, g.node? i = some v ∧ v.isControlFlow = true ∧
      of g order = .error (.controlFlow v.name v.op) := by
  induction order with
  | nil => exact .inl ⟨rfl, by simp⟩
  | cons i order ih =>
    obtain ⟨v, hv⟩ := hnodes i List.mem_cons_self
    have hof : of g (i :: order) = (if v.isSentinel then of g order
        else if v.isControlFlow then throw (.controlFlow v.name v.op)
        else do return (← of g order).insert v i) := by
      rw [of, Graph.node_of_some hv]
      rfl
    have rest := ih fun j hj => hnodes j (List.mem_cons_of_mem _ hj)
    by_cases hs : v.isSentinel = true
    · rw [hof, if_pos hs, byRole_cons_of_isSentinel hv hs]
      obtain ⟨hok, hcalm⟩ | ⟨j, hj, u, hu, hflow, herror⟩ := rest
      · refine .inl ⟨hok, List.forall_mem_cons.mpr ⟨?_, hcalm⟩⟩
        rw [Graph.is_of_node? _ hv]
        exact Node.not_isControlFlow_of_isSentinel hs
      · exact .inr ⟨j, List.mem_cons_of_mem _ hj, u, hu, hflow, herror⟩
    · by_cases hc : v.isControlFlow = true
      · rw [hof, if_neg hs, if_pos hc]
        exact .inr ⟨i, List.mem_cons_self, v, hv, hc, rfl⟩
      · rw [hof, if_neg hs, if_neg hc, byRole_cons hv hs]
        obtain ⟨hok, hcalm⟩ | ⟨j, hj, u, hu, hflow, herror⟩ := rest
        · rw [hok]
          refine .inl ⟨rfl, List.forall_mem_cons.mpr ⟨?_, hcalm⟩⟩
          rw [Graph.is_of_node? _ hv]
          exact hc
        · rw [herror]
          exact .inr ⟨j, List.mem_cons_of_mem _ hj, u, hu, hflow, rfl⟩

end Partition

/-! ### The static arguments -/

section StaticFlags

variable {g : Graph}

/-- The edges that say whether a node feeds a slot that needs a value. -/
theorem feedsStaticSlot_iff (wf : g.WellFormed) {i : Nat} {v : Node} (hv : g.node? i = some v) :
    feedsStaticSlot g v = true ↔
      ∃ output j slot consumer, g.Carries i output j slot ∧ g.node? j = some consumer ∧
        ¬ consumer.isSentinel = true ∧ needsValue consumer slot = true := by
  rw [feedsStaticSlot, List.any_eq_true]
  constructor
  · rintro ⟨⟨src, dst, kind⟩, he, hslot⟩
    obtain ⟨hmem, hsrc, -⟩ := (wf.mem_dataOutEdges hv).mp he
    obtain rfl : src = i := hsrc
    rw [entersStaticSlot] at hslot
    split at hslot
    case h_1 output slot consumer hkind hconsumer =>
      obtain rfl : kind = .data output slot := hkind
      exact ⟨output, dst, slot, consumer, hmem, hconsumer, by simpa using hslot⟩
    case h_2 => exact absurd hslot Bool.false_ne_true
  · rintro ⟨output, j, slot, consumer, hcarries, hconsumer, hsentinel, hneeds⟩
    refine ⟨_, (wf.mem_dataOutEdges hv).mpr ⟨hcarries, rfl, rfl⟩, ?_⟩
    simp [entersStaticSlot, hconsumer, hsentinel, hneeds]

theorem positioned_eq_ok {count i : Nat} {p : Node × Nat} :
    positioned g count i = .ok p ↔
      g.node? i = some p.1 ∧ position p.1 = .ok p.2 ∧ p.2 < count := by
  obtain ⟨v, k⟩ := p
  rw [positioned]
  constructor
  · intro h
    obtain ⟨u, hu, h⟩ := except_bind_eq_ok.mp h
    obtain ⟨index, hindex, h⟩ := except_bind_eq_ok.mp h
    split at h
    case isTrue => cases h
    case isFalse hlt =>
      obtain ⟨rfl, rfl⟩ : u = v ∧ index = k := by simpa using h
      exact ⟨Graph.node_eq_ok.mp hu, hindex, Nat.lt_of_not_le hlt⟩
  · rintro ⟨hv, hk, hlt⟩
    rw [Graph.node_of_some hv]
    refine except_bind_eq_ok.mpr ⟨v, rfl, except_bind_eq_ok.mpr ⟨k, hk, ?_⟩⟩
    rw [if_neg (Nat.not_le_of_lt hlt)]
    rfl

/-- The flags reach up to the greatest position of an argument. -/
theorem lt_foldl_max {arguments : List (Node × Nat)} {n m : Nat} :
    n < arguments.foldl (fun n p => max n (p.2 + 1)) m ↔ n < m ∨ ∃ p ∈ arguments, n ≤ p.2 := by
  induction arguments generalizing m with
  | nil => simp
  | cons q arguments ih =>
    rw [List.foldl_cons, ih, lt_max_iff, Nat.lt_succ_iff, or_assoc]
    simp

/-- Marking the positions of the arguments that feed a static slot sets these flags and no
other. -/
theorem getElem?_foldl_flags (arguments : List (Node × Nat)) (flags : List Bool) (k : Nat)
    (hlt : ∀ p ∈ arguments, p.2 < flags.length) :
    (arguments.foldl (fun flags p => if feedsStaticSlot g p.1 then flags.set p.2 true else flags)
        flags)[k]?.getD false = true ↔
      flags[k]?.getD false = true ∨ ∃ p ∈ arguments, p.2 = k ∧ feedsStaticSlot g p.1 = true := by
  induction arguments generalizing flags with
  | nil => simp
  | cons p arguments ih =>
    obtain ⟨hp, hrest⟩ := List.forall_mem_cons.mp hlt
    rw [List.foldl_cons]
    by_cases hfeeds : feedsStaticSlot g p.1 = true
    · rw [if_pos hfeeds, ih _ (by simpa using hrest), List.getElem?_set]
      by_cases hk : p.2 = k
      · simp [hk, hfeeds, hk ▸ hp]
      · simp [hk]
    · rw [if_neg hfeeds, ih _ hrest]
      simp [hfeeds]

/-- The flags of the listed arguments, if each of them has a position below their number. -/
theorem staticFlags_spec {params : List Nat} {flags : List Bool}
    (h : staticFlags g params = .ok flags) :
    (∀ i ∈ params, ∃ v k, g.node? i = some v ∧ position v = .ok k ∧ k < params.length) ∧
    ∀ k, flags[k]?.getD false = true ↔
      ∃ i ∈ params, ∃ v, g.node? i = some v ∧ position v = .ok k ∧ feedsStaticSlot g v = true := by
  obtain ⟨arguments, harguments, hflags⟩ := except_bind_eq_ok.mp h
  have halike := except_mapM_eq_ok.mp harguments
  refine ⟨fun i hi => ?_, fun k => ?_⟩
  · obtain ⟨p, -, hp⟩ := forall₂_exists_right halike hi
    obtain ⟨hv, hk, hlt⟩ := positioned_eq_ok.mp hp
    exact ⟨p.1, p.2, hv, hk, hlt⟩
  · have hmark := getElem?_foldl_flags (g := g) arguments
      (List.replicate (arguments.foldl (fun n p => max n (p.2 + 1)) 0) false) k
      (fun p hp => by
        rw [List.length_replicate]
        exact lt_foldl_max.mpr (.inr ⟨p, hp, le_rfl⟩))
    rw [show flags = _ from (Except.ok.inj hflags).symm]
    refine hmark.trans ⟨?_, ?_⟩
    · rintro (hfalse | ⟨p, hp, rfl, hfeeds⟩)
      · rw [List.getElem?_replicate] at hfalse
        split at hfalse <;> exact absurd hfalse Bool.false_ne_true
      · obtain ⟨i, hi, hip⟩ := forall₂_exists_left halike hp
        obtain ⟨hv, hk, -⟩ := positioned_eq_ok.mp hip
        exact ⟨i, hi, p.1, hv, hk, hfeeds⟩
    · rintro ⟨i, hi, v, hv, hk, hfeeds⟩
      obtain ⟨p, hp, hip⟩ := forall₂_exists_right halike hi
      obtain ⟨hv', hk', -⟩ := positioned_eq_ok.mp hip
      obtain rfl : v = p.1 := Option.some.inj (hv.symm.trans hv')
      exact .inr ⟨p, hp, Except.ok.inj (hk'.symm.trans hk), hfeeds⟩

theorem length_foldl_flags (arguments : List (Node × Nat)) (flags : List Bool) :
    (arguments.foldl (fun flags p => if feedsStaticSlot g p.1 then flags.set p.2 true else flags)
      flags).length = flags.length := by
  induction arguments generalizing flags with
  | nil => rfl
  | cons p arguments ih =>
    rw [List.foldl_cons, ih]
    split
    · rw [List.length_set]
    · rfl

/-- There are flags up to the greatest position of an argument, and no more. -/
theorem lt_length_staticFlags {params : List Nat} {flags : List Bool}
    (h : staticFlags g params = .ok flags) {n : Nat} :
    n < flags.length ↔
      ∃ i ∈ params, ∃ v k, g.node? i = some v ∧ position v = .ok k ∧ n ≤ k := by
  obtain ⟨arguments, harguments, hflags⟩ := except_bind_eq_ok.mp h
  have halike := except_mapM_eq_ok.mp harguments
  rw [← Except.ok.inj hflags, length_foldl_flags, List.length_replicate, lt_foldl_max]
  constructor
  · rintro (hlt | ⟨p, hp, hle⟩)
    · exact absurd hlt (Nat.not_lt_zero n)
    · obtain ⟨i, hi, hip⟩ := forall₂_exists_left halike hp
      obtain ⟨hv, hk, -⟩ := positioned_eq_ok.mp hip
      exact ⟨i, hi, p.1, p.2, hv, hk, hle⟩
  · rintro ⟨i, hi, v, k, hv, hk, hle⟩
    obtain ⟨p, hp, hip⟩ := forall₂_exists_right halike hi
    obtain ⟨hv', hk', -⟩ := positioned_eq_ok.mp hip
    obtain rfl : v = p.1 := Option.some.inj (hv.symm.trans hv')
    obtain rfl : p.2 = k := Except.ok.inj (hk'.symm.trans hk)
    exact .inr ⟨p, hp, hle⟩

theorem exists_staticFlags {params : List Nat}
    (h : ∀ i ∈ params, ∃ v k, g.node? i = some v ∧ position v = .ok k ∧ k < params.length) :
    ∃ flags, staticFlags g params = .ok flags := by
  obtain ⟨arguments, harguments⟩ := exists_except_mapM (f := positioned g params.length) fun i hi =>
    let ⟨v, k, hv, hk, hlt⟩ := h i hi
    ⟨(v, k), positioned_eq_ok.mpr ⟨hv, hk, hlt⟩⟩
  exact ⟨_, except_bind_eq_ok.mpr ⟨arguments, harguments, rfl⟩⟩

end StaticFlags

/-! ### Preparing a graph -/

namespace Source.Graph

variable {g : Graph}

/-- The places of the nodes with a property. -/
def places (g : Graph) (role : Node → Bool) : List Nat :=
  (List.range g.nodes.size).filter (g.is role)

theorem mem_places {role : Node → Bool} {i : Nat} : i ∈ g.places role ↔ g.is role i = true := by
  rw [places, List.mem_filter, List.mem_range]
  refine ⟨And.right, fun h => ⟨?_, h⟩⟩
  obtain ⟨v, hv, -⟩ := is_iff.mp h
  exact node?_lt hv

theorem places_nodup (g : Graph) (role : Node → Bool) : (g.places role).Nodup :=
  List.nodup_range.filter _

/-- The position of the argument or result at a place, where it has one. -/
def position? (g : Graph) (i : Nat) : Option Nat := (g.node? i).bind fun v => (position v).toOption

theorem position?_of_ok {i k : Nat} {v : Node} (hv : g.node? i = some v)
    (hk : position v = .ok k) : g.position? i = some k := by
  rw [position?, hv, Option.bind_some, hk]
  rfl

end Source.Graph

/-- What preparing a graph makes sure of. The parts hold the nodes of their role, each once; an op
stands behind the ops that lead to it; no node branches; every argument has a position; and a
position is static if an argument there feeds a slot that needs a value. -/
structure Compiled.Prepared (c : Compiled) : Prop where
  wf : c.graph.WellFormed
  params : c.parts.params.Perm (c.graph.places Node.isArgument)
  returns : c.parts.returns.Perm (c.graph.places Node.isReturn)
  ops : c.parts.ops.Perm (c.graph.places Node.isOrdinary)
  before {done rest : List Nat} {i j : Nat} : c.parts.ops = done ++ i :: rest →
    c.graph.Leads j i → j ∈ c.parts.ops → j ∈ done
  calm (i : Nat) : ¬ c.graph.is Node.isControlFlow i = true
  param_position {i : Nat} : i ∈ c.parts.params →
    ∃ v k, c.graph.node? i = some v ∧ position v = .ok k ∧ k < c.parts.params.length
  isStatic (k : Nat) : c.isStatic k = true ↔
    ∃ i ∈ c.parts.params, ∃ v, c.graph.node? i = some v ∧ position v = .ok k ∧
      feedsStaticSlot c.graph v = true

namespace Compiled.Prepared

variable {c : Compiled} (hc : c.Prepared) {i : Nat}
include hc

theorem mem_params : i ∈ c.parts.params ↔ c.graph.is Node.isArgument i = true := by
  rw [hc.params.mem_iff, Graph.mem_places]

theorem mem_returns : i ∈ c.parts.returns ↔ c.graph.is Node.isReturn i = true := by
  rw [hc.returns.mem_iff, Graph.mem_places]

theorem mem_ops : i ∈ c.parts.ops ↔ c.graph.is Node.isOrdinary i = true := by
  rw [hc.ops.mem_iff, Graph.mem_places]

theorem params_nodup : c.parts.params.Nodup := hc.params.nodup_iff.mpr (Graph.places_nodup _ _)

theorem returns_nodup : c.parts.returns.Nodup := hc.returns.nodup_iff.mpr (Graph.places_nodup _ _)

theorem ops_nodup : c.parts.ops.Nodup := hc.ops.nodup_iff.mpr (Graph.places_nodup _ _)

end Compiled.Prepared

section Prepare

variable {g : Graph} {order : List Nat}

/-- An op stands behind the ops that lead to it. -/
theorem mem_front_of_leads (hordered : g.Ordered order) (hnodup : order.Nodup)
    {role : Node → Bool} {done rest : List Nat} {i j : Nat}
    (hsplit : order.filter (g.is role) = done ++ i :: rest) (hleads : g.Leads j i)
    (hj : j ∈ order.filter (g.is role)) : j ∈ done := by
  have hback := (hordered.pairwise hnodup).filter (g.is role)
  rw [hsplit] at hback
  have hself : j ≠ i := by
    intro hji
    exact hordered.not_leads_self hnodup (List.mem_filter.mp hj).1 (hji ▸ hleads)
  rw [hsplit, List.mem_append, List.mem_cons] at hj
  obtain hj | hj | hj := hj
  · exact hj
  · exact absurd hj hself
  -- a node behind `i` would lead back to it
  · have htail := (List.pairwise_append.mp hback).2.1
    exact absurd hleads ((List.pairwise_cons.mp htail).1 j hj)

/-- The steps of a preparation that succeeds. -/
theorem prepare_eq_ok {c : Compiled} (h : prepare g = .ok c) :
    c.graph = g ∧ ∃ order, g.order = .ok order ∧ Partition.of g order = .ok c.parts ∧
      staticFlags g c.parts.params = .ok c.flags := by
  obtain ⟨order, horder, h⟩ := except_bind_eq_ok.mp h
  obtain ⟨parts, hparts, h⟩ := except_bind_eq_ok.mp h
  obtain ⟨flags, hflags, h⟩ := except_bind_eq_ok.mp h
  obtain rfl : ⟨g, parts, flags⟩ = c := Except.ok.inj h
  exact ⟨rfl, order, horder, hparts, hflags⟩

theorem exists_node?_of_perm (hperm : order.Perm (List.range g.nodes.size)) (i : Nat)
    (hi : i ∈ order) : ∃ v, g.node? i = some v :=
  Graph.exists_node? (List.mem_range.mp (hperm.mem_iff.mp hi))

/-- A graph that has been prepared is in the state that `Prepared` says. -/
theorem prepared_of_prepare {c : Compiled} (wf : g.WellFormed) (h : prepare g = .ok c) :
    c.Prepared := by
  obtain ⟨rfl, order, horder, hparts, hflags⟩ := prepare_eq_ok h
  obtain ⟨hperm, hordered⟩ := Graph.order_spec wf horder
  have hnodup : order.Nodup := hperm.nodup_iff.mpr List.nodup_range
  obtain ⟨hby, hcalm⟩ | ⟨_, -, _, -, -, herror⟩ := Partition.of_cases (exists_node?_of_perm hperm)
  · obtain ⟨hposition, hstatic⟩ := staticFlags_spec hflags
    have hroles : c.parts = Partition.byRole c.graph order := Except.ok.inj (hparts.symm.trans hby)
    exact {
      wf
      params := by rw [hroles]; exact hperm.filter _
      returns := by rw [hroles]; exact hperm.filter _
      ops := by rw [hroles]; exact hperm.filter _
      before := by rw [hroles]; exact mem_front_of_leads hordered hnodup
      calm := by
        intro i hi
        obtain ⟨v, hv, -⟩ := Graph.is_iff.mp hi
        exact hcalm i (hperm.mem_iff.mpr (List.mem_range.mpr (Graph.node?_lt hv))) hi
      param_position := fun hi => hposition _ hi
      isStatic := hstatic }
  · exact absurd (hparts.symm.trans herror) (by simp)

/-- What a graph with an order needs in order to be prepared: no node branches, and the arguments
have positions below their number. -/
def Source.Graph.Preparable (g : Graph) : Prop :=
  (∀ i, ¬ g.is Node.isControlFlow i = true) ∧
  ∀ i v, g.node? i = some v → v.isArgument = true →
    ∃ k, position v = .ok k ∧ k < (g.places Node.isArgument).length

theorem exists_prepare_iff (wf : g.WellFormed) (horder : g.order = .ok order) :
    (∃ c, prepare g = .ok c) ↔ g.Preparable := by
  obtain ⟨hperm, -⟩ := Graph.order_spec wf horder
  constructor
  · rintro ⟨c, hc⟩
    have hprepared := prepared_of_prepare wf hc
    obtain ⟨rfl, -⟩ := prepare_eq_ok hc
    refine ⟨hprepared.calm, fun i v hv ha => ?_⟩
    have hi : i ∈ c.parts.params := hprepared.mem_params.mpr (Graph.is_iff.mpr ⟨v, hv, ha⟩)
    obtain ⟨u, k, hu, hk, hlt⟩ := hprepared.param_position hi
    obtain rfl : u = v := Option.some.inj (hu.symm.trans hv)
    exact ⟨k, hk, hprepared.params.length_eq ▸ hlt⟩
  · rintro ⟨hcalm, hposition⟩
    obtain ⟨hby, -⟩ | ⟨i, -, v, hv, hflow, -⟩ := Partition.of_cases (exists_node?_of_perm hperm)
    · have hparams : (Partition.byRole g order).params.Perm (g.places Node.isArgument) :=
        hperm.filter _
      have hargs : ∀ i ∈ (Partition.byRole g order).params, ∃ v k, g.node? i = some v ∧
          position v = .ok k ∧ k < (Partition.byRole g order).params.length := by
        intro i hi
        obtain ⟨v, hv, ha⟩ := Graph.is_iff.mp (Graph.mem_places.mp (hparams.mem_iff.mp hi))
        obtain ⟨k, hk, hlt⟩ := hposition i v hv ha
        exact ⟨v, k, hv, hk, hparams.length_eq.symm ▸ hlt⟩
      obtain ⟨flags, hflags⟩ := exists_staticFlags hargs
      refine ⟨⟨g, Partition.byRole g order, flags⟩, except_bind_eq_ok.mpr ⟨order, horder, ?_⟩⟩
      refine except_bind_eq_ok.mpr ⟨_, hby, except_bind_eq_ok.mpr ⟨flags, hflags, rfl⟩⟩
    · exact absurd (Graph.is_iff.mpr ⟨v, hv, hflow⟩) (hcalm i)

end Prepare

end GraphLowering
