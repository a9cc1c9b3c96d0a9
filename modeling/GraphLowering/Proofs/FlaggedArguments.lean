import Mathlib
import GraphLowering.Proofs.Acceptance

/-!
# Which arguments are flagged

The value of an argument has to be known while lowering just if a data edge leads from it into an
input slot on which some rule needs a value. This module says so of the flags, in terms of the edges
and of the op types alone, and draws the consequence: nothing else has any influence on the flags.

* `StaticSlot` — the slots of an op type that need a value, which `needsValue_iff` finds.
* `Graph.ArgumentAt`, `Graph.FeedsStatic` — an argument with its index, and a node that feeds such a
  slot.
* `flagged_iff`, `lt_length_flags_iff` — which flags are set, and how many there are.
* `Graph.SameStatics` — graphs whose arguments have the same indices and feed such slots alike.
* `staticFlags_exact` — the flags, their number, and that they depend on nothing else.
-/

namespace GraphLowering

open Source

/-! ### Slots that need a value -/

/-- A slot on which the rule of an op type needs a value, at a node with `count` data inputs: one of
those that are listed for the op type, or the last slot of a concatenation. -/
inductive StaticSlot (op : String) (count slot : Nat) : Prop where
  | listed {kind : OpKind} {slots : List Nat} (registered : OpKind.ofName? op = some kind)
      (entry : kind.staticSlots = .listed slots) (mem : slot ∈ slots)
  | last (concat : op = "ConcatV2") (last : slot + 1 = count)

theorem OpKind.eq_concat_of_last {kind : OpKind} (h : kind.staticSlots = .last) :
    kind = .concat := by
  cases kind with
  | concat => rfl
  | _ => cases h

/-- The slots of a node that need a value follow from its op type and the number of its inputs. -/
theorem needsValue_iff {v : Node} {slot : Nat} :
    needsValue v slot = true ↔ StaticSlot v.op v.inputs slot := by
  unfold needsValue
  constructor
  · intro h
    split at h
    case h_1 kind hkind =>
      cases hslots : kind.staticSlots with
      | none =>
        rw [hslots] at h
        cases h
      | listed slots =>
        rw [hslots] at h
        exact .listed hkind hslots (List.contains_iff_mem.mp h)
      | last =>
        rw [hslots] at h
        obtain rfl := OpKind.eq_concat_of_last hslots
        have hname := OpKind.mem_names_of_ofName? hkind
        exact .last (List.mem_singleton.mp hname) (of_decide_eq_true h)
    case h_2 => cases h
  · intro h
    cases h with
    | listed hkind hslots hmem =>
      rw [hkind]
      show StaticSlots.contains _ v slot = true
      rw [hslots]
      exact List.contains_iff_mem.mpr hmem
    | last hop hlast =>
      rw [hop]
      exact decide_eq_true hlast

/-! ### Arguments and the slots they feed -/

namespace Source

/-- A position is what attribute `index` says. -/
theorem Node.position_eq_ok_iff {v : Node} {k : Nat} :
    position v = .ok k ↔ v.attr? "index" = some (.int k) := by
  obtain ⟨n, hattr, hposition⟩ | ⟨error, herror, hfault⟩ := v.position_cases (k + 1)
  · rw [hattr, hposition]
    simp
  · refine iff_of_false (by rw [herror]; nofun) fun hattr => ?_
    exact hfault.not_indexBelow ⟨k, hattr, by omega, by omega⟩

namespace Graph

variable {g g' : Graph}

/-- How many data edges lead to a node. -/
def dataInputs (g : Graph) (i : Nat) : Nat :=
  g.edges.toList.countP fun e => e.isData && e.dst = i

/-- The node at place `i` is an argument with index `k`. -/
def ArgumentAt (g : Graph) (i k : Nat) : Prop :=
  ∃ v, g.node? i = some v ∧ v.op = "_Arg" ∧ v.attr? "index" = some (.int k)

/-- A data edge leads from the node at place `i` into a slot that needs a value, of a node that is no
sentinel. -/
def FeedsStatic (g : Graph) (i : Nat) : Prop :=
  ∃ output j slot consumer, g.Carries i output j slot ∧ g.node? j = some consumer ∧
    ¬ consumer.isSentinel = true ∧ StaticSlot consumer.op (g.dataInputs j) slot

theorem feedsStatic_iff (wf : g.WellFormed) {i : Nat} :
    g.FeedsStatic i ↔ g.is (feedsStaticSlot g) i = true := by
  have hslot : ∀ {j : Nat} {consumer : Node} {slot : Nat}, g.node? j = some consumer →
      (needsValue consumer slot = true ↔ StaticSlot consumer.op (g.dataInputs j) slot) := by
    intro j consumer slot hconsumer
    rw [needsValue_iff, wf.inputs j consumer hconsumer, dataInputs]
  rw [is_iff]
  constructor
  · rintro ⟨output, j, slot, consumer, hcarries, hconsumer, hsentinel, hneeds⟩
    obtain ⟨v, hv⟩ := hcarries.exists_producer wf
    exact ⟨v, hv, (feedsStaticSlot_iff wf hv).mpr
      ⟨output, j, slot, consumer, hcarries, hconsumer, hsentinel, (hslot hconsumer).mpr hneeds⟩⟩
  · rintro ⟨v, hv, hfeeds⟩
    obtain ⟨output, j, slot, consumer, hcarries, hconsumer, hsentinel, hneeds⟩ :=
      (feedsStaticSlot_iff wf hv).mp hfeeds
    exact ⟨output, j, slot, consumer, hcarries, hconsumer, hsentinel, (hslot hconsumer).mp hneeds⟩

theorem ArgumentAt.mem_places {i k : Nat} (h : g.ArgumentAt i k) :
    i ∈ g.places Node.isArgument := by
  obtain ⟨v, hv, hop, -⟩ := h
  exact Graph.mem_places.mpr (is_iff.mpr ⟨v, hv, Node.isArgument_iff.mpr hop⟩)

theorem argumentAt_iff {i k : Nat} :
    g.ArgumentAt i k ↔
      i ∈ g.places Node.isArgument ∧ ∃ v, g.node? i = some v ∧ position v = .ok k := by
  constructor
  · intro h
    refine ⟨h.mem_places, ?_⟩
    obtain ⟨v, hv, -, hattr⟩ := h
    exact ⟨v, hv, Node.position_eq_ok_iff.mpr hattr⟩
  · rintro ⟨hi, v, hv, hk⟩
    obtain ⟨u, hu, hrole⟩ := is_iff.mp (Graph.mem_places.mp hi)
    obtain rfl : u = v := Option.some.inj (hu.symm.trans hv)
    exact ⟨u, hu, Node.isArgument_iff.mp hrole, Node.position_eq_ok_iff.mp hk⟩

/-- Two graphs have the same arguments, with the same indices, and each of them feeds a slot that
needs a value in both graphs or in neither. Everything else may differ. -/
structure SameStatics (g g' : Graph) : Prop where
  arguments : g.places Node.isArgument = g'.places Node.isArgument
  index : ∀ i ∈ g.places Node.isArgument,
    (g.node? i).bind (·.attr? "index") = (g'.node? i).bind (·.attr? "index")
  feeds : ∀ i ∈ g.places Node.isArgument, (g.FeedsStatic i ↔ g'.FeedsStatic i)

namespace SameStatics

theorem symm (h : g.SameStatics g') : g'.SameStatics g where
  arguments := h.arguments.symm
  index i hi := (h.index i (h.arguments ▸ hi)).symm
  feeds i hi := (h.feeds i (h.arguments ▸ hi)).symm

theorem argumentAt (h : g.SameStatics g') {i k : Nat} (hi : g.ArgumentAt i k) :
    g'.ArgumentAt i k := by
  have hplace := hi.mem_places
  obtain ⟨v, hv, -, hattr⟩ := hi
  obtain ⟨v', hv', hrole⟩ := is_iff.mp (Graph.mem_places.mp (h.arguments ▸ hplace))
  have hindex := h.index i hplace
  rw [hv, hv', Option.bind_some, Option.bind_some, hattr] at hindex
  exact ⟨v', hv', Node.isArgument_iff.mp hrole, hindex.symm⟩

end SameStatics

end Graph

end Source

/-! ### The flags -/

section Flags

variable {g g' : Graph} {params params' : List Nat} {flags flags' : List Bool}

theorem flagged_iff (wf : g.WellFormed) (hparams : params.Perm (g.places Node.isArgument))
    (h : staticFlags g params = .ok flags) (k : Nat) :
    flags[k]? = some true ↔ ∃ i, g.ArgumentAt i k ∧ g.FeedsStatic i := by
  have hset : flags[k]? = some true ↔ flags[k]?.getD false = true := by
    cases flags[k]? <;> simp
  rw [hset, (staticFlags_spec h).2 k]
  constructor
  · rintro ⟨i, hi, v, hv, hk, hfeeds⟩
    exact ⟨i, Graph.argumentAt_iff.mpr ⟨hparams.mem_iff.mp hi, v, hv, hk⟩,
      (Graph.feedsStatic_iff wf).mpr (Graph.is_iff.mpr ⟨v, hv, hfeeds⟩)⟩
  · rintro ⟨i, hargument, hfeeds⟩
    obtain ⟨hi, v, hv, hk⟩ := Graph.argumentAt_iff.mp hargument
    rw [Graph.feedsStatic_iff wf, Graph.is_of_node? _ hv] at hfeeds
    exact ⟨i, hparams.mem_iff.mpr hi, v, hv, hk, hfeeds⟩

theorem lt_length_flags_iff (hparams : params.Perm (g.places Node.isArgument))
    (h : staticFlags g params = .ok flags) {n : Nat} :
    n < flags.length ↔ ∃ i k, g.ArgumentAt i k ∧ n ≤ k := by
  rw [lt_length_staticFlags h]
  constructor
  · rintro ⟨i, hi, v, k, hv, hk, hle⟩
    exact ⟨i, k, Graph.argumentAt_iff.mpr ⟨hparams.mem_iff.mp hi, v, hv, hk⟩, hle⟩
  · rintro ⟨i, k, hargument, hle⟩
    obtain ⟨hi, v, hv, hk⟩ := Graph.argumentAt_iff.mp hargument
    exact ⟨i, hparams.mem_iff.mpr hi, v, k, hv, hk, hle⟩

/-- Every argument has an index, which is below the number of arguments and has a flag. -/
theorem exists_argumentAt (hparams : params.Perm (g.places Node.isArgument))
    (h : staticFlags g params = .ok flags) {i : Nat} (hi : i ∈ params) :
    ∃ k, g.ArgumentAt i k ∧ k < params.length ∧ k < flags.length := by
  obtain ⟨v, k, hv, hk, hlt⟩ := (staticFlags_spec h).1 i hi
  have hargument := Graph.argumentAt_iff.mpr ⟨hparams.mem_iff.mp hi, v, hv, hk⟩
  exact ⟨k, hargument, hlt, (lt_length_flags_iff hparams h).mpr ⟨i, k, hargument, le_rfl⟩⟩

theorem isGreatest_of_flags (hparams : params.Perm (g.places Node.isArgument))
    (h : staticFlags g params = .ok flags) (hne : params ≠ []) :
    ∃ k, IsGreatest {k | ∃ i, g.ArgumentAt i k} k ∧ flags.length = k + 1 := by
  obtain ⟨i, hi⟩ := List.exists_mem_of_ne_nil params hne
  obtain ⟨_, -, -, hpos⟩ := exists_argumentAt hparams h hi
  obtain ⟨last, hlast⟩ : ∃ last, flags.length = last + 1 := ⟨flags.length - 1, by omega⟩
  have hbound : ∀ {j k : Nat}, g.ArgumentAt j k → k ≤ last := by
    intro j k hargument
    have := (lt_length_flags_iff hparams h).mpr ⟨j, k, hargument, le_rfl⟩
    omega
  obtain ⟨j, k, hargument, hle⟩ := (lt_length_flags_iff (n := last) hparams h).mp (by omega)
  obtain rfl : k = last := Nat.le_antisymm (hbound hargument) hle
  refine ⟨k, ⟨⟨j, hargument⟩, ?_⟩, hlast⟩
  rintro n ⟨i, hn⟩
  exact hbound hn

/-- Graphs that feed static slots alike have the same flags. -/
theorem flags_eq_of_sameStatics (wf : g.WellFormed) (wf' : g'.WellFormed)
    (hparams : params.Perm (g.places Node.isArgument))
    (hparams' : params'.Perm (g'.places Node.isArgument)) (hsame : g.SameStatics g')
    (h : staticFlags g params = .ok flags) (h' : staticFlags g' params' = .ok flags') :
    flags' = flags := by
  have hargument : ∀ i k, g'.ArgumentAt i k ↔ g.ArgumentAt i k :=
    fun i k => ⟨hsame.symm.argumentAt, hsame.argumentAt⟩
  have hlength : flags'.length = flags.length := by
    refine eq_of_forall_lt_iff fun n => ?_
    rw [lt_length_flags_iff hparams' h', lt_length_flags_iff hparams h]
    simp only [hargument]
  have hset : ∀ k : Nat, flags'[k]? = some true ↔ flags[k]? = some true := by
    intro k
    rw [flagged_iff wf' hparams' h', flagged_iff wf hparams h]
    refine exists_congr fun i => ?_
    rw [hargument]
    exact and_congr_right fun hi => (hsame.feeds i hi.mem_places).symm
  refine List.ext_getElem hlength fun k hk hk' => ?_
  have := hset k
  rw [List.getElem?_eq_getElem hk, List.getElem?_eq_getElem hk', Option.some.injEq,
    Option.some.injEq] at this
  exact Bool.eq_iff_iff.mpr this

/-- **The flags are exact.** Let the flags of a graph that calls build be found for all its arguments.
The flag at an index is set iff an argument with that index has a data edge into a slot that needs a
value, of a node that is no sentinel. There are flags up to the greatest index and no more, so every
argument has one. A graph whose arguments have the same indices, and feed slots that need values in the
same way, has the same flags, whatever its other nodes, edges and values are. -/
theorem staticFlags_exact (hbuilt : g.Built) (hparams : params.Perm (g.places Node.isArgument))
    (h : staticFlags g params = .ok flags) :
    (∀ k : Nat, flags[k]? = some true ↔ ∃ i, g.ArgumentAt i k ∧ g.FeedsStatic i) ∧
    (params = [] → flags = []) ∧
    (params ≠ [] → ∃ k, IsGreatest {k | ∃ i, g.ArgumentAt i k} k ∧ flags.length = k + 1) ∧
    (∀ i ∈ params, ∃ k, g.ArgumentAt i k ∧ k < flags.length) ∧
    ∀ g' params', g'.Built → params'.Perm (g'.places Node.isArgument) → g.SameStatics g' →
      staticFlags g' params' = .ok flags := by
  refine ⟨flagged_iff hbuilt.wellFormed hparams h, ?_, isGreatest_of_flags hparams h, ?_, ?_⟩
  · rintro rfl
    exact (Except.ok.inj h).symm
  · intro i hi
    obtain ⟨k, hargument, -, hlt⟩ := exists_argumentAt hparams h hi
    exact ⟨k, hargument, hlt⟩
  · intro g' params' hbuilt' hparams' hsame
    have hperm : params'.Perm params := hparams'.trans (hsame.arguments ▸ hparams.symm)
    obtain ⟨flags', h'⟩ : ∃ flags', staticFlags g' params' = .ok flags' := by
      refine exists_staticFlags fun i hi => ?_
      obtain ⟨k, hargument, hlt, -⟩ := exists_argumentAt hparams h (hperm.mem_iff.mp hi)
      obtain ⟨-, v, hv, hk⟩ := Graph.argumentAt_iff.mp (hsame.argumentAt hargument)
      exact ⟨v, k, hv, hk, hperm.length_eq ▸ hlt⟩
    rw [h', flags_eq_of_sameStatics hbuilt.wellFormed hbuilt'.wellFormed hparams hparams' hsame h h']

end Flags

/-- An argument node with its index. -/
def indexed (name : String) (index : Int) : NodeSpec :=
  { name := name, op := "_Arg", attrs := NameTable.empty.insert "index" (.int index) }

/-- A tensor that is reshaped and joined with itself. The arguments are the tensor, the shape and the
axis; the last two have the indices two and one. -/
def joinedReshape : Graph := Graph.build [
  .node (indexed "x" 0), .node (indexed "shape" 2), .node (indexed "axis" 1),
  .node { name := "flat", op := "Reshape" }, .node { name := "all", op := "ConcatV2" },
  .edge 0 0 3 0, .edge 1 0 3 1, .edge 3 0 4 0, .edge 3 0 4 1, .edge 2 0 4 2]

/-- The same with the edges in another order, a control edge, a constant in place of one of the joined
tensors, and more consumers of the arguments. -/
def joinedElsewhere : Graph := Graph.build [
  .node (indexed "x" 0), .node (indexed "shape" 2), .node (indexed "axis" 1),
  .node { name := "flat", op := "Reshape" }, .node { name := "all", op := "ConcatV2" },
  .node { name := "six", op := "Const",
          attrs := NameTable.empty.insert "value" (.tensor (.vector64 [6])) },
  .node { name := "sizes", op := "AddN" },
  .edge 2 0 4 2, .edge 5 0 4 1, .edge 1 0 6 1, .edge 3 0 4 0, .edge 2 0 6 0, .edge 1 0 3 1,
  .control 2 3, .edge 0 0 3 0]

theorem joined_sameStatics : joinedReshape.SameStatics joinedElsewhere := by
  have wf : joinedReshape.WellFormed := Graph.Built.wellFormed ⟨_, rfl⟩
  have wf' : joinedElsewhere.WellFormed := Graph.Built.wellFormed ⟨_, rfl⟩
  have hfeeds : ∀ i ∈ joinedReshape.places Node.isArgument,
      joinedReshape.is (feedsStaticSlot joinedReshape) i =
        joinedElsewhere.is (feedsStaticSlot joinedElsewhere) i := by
    decide +kernel
  refine ⟨by decide +kernel, by decide +kernel, fun i hi => ?_⟩
  rw [Graph.feedsStatic_iff wf, Graph.feedsStatic_iff wf', hfeeds i hi]

/-- The shape and the axis are flagged in both graphs, and the tensor is not. -/
theorem joined_flags :
    staticFlags joinedReshape [2, 0, 1] = .ok [false, true, true] ∧
    staticFlags joinedElsewhere [0, 1, 2] = .ok [false, true, true] ∧
    (∃ i, joinedReshape.ArgumentAt i 1 ∧ joinedReshape.FeedsStatic i) ∧
    ¬ ∃ i, joinedReshape.ArgumentAt i 0 ∧ joinedReshape.FeedsStatic i := by
  have hflags : staticFlags joinedReshape [2, 0, 1] = .ok [false, true, true] := by decide +kernel
  obtain ⟨hset, -, -, -, hsame⟩ := staticFlags_exact ⟨_, rfl⟩ (by decide +kernel) hflags
  refine ⟨hflags, ?_, (hset 1).mp rfl, fun hfed => ?_⟩
  · exact hsame joinedElsewhere [0, 1, 2] ⟨_, rfl⟩ (by decide +kernel) joined_sameStatics
  · exact absurd ((hset 0).mpr hfed) (by decide)

end GraphLowering
