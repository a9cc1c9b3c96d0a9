import Mathlib
import GraphLowering.Proofs.Run

/-!
# How runs fail

A run stops at the first step that fails. Only two kinds of failure say something about the order in
which the nodes are lowered or about the values of the arguments: an input without a wire, and an
argument without its value. This module finds where they can come from.

* `Compiled.Prepared.lower_error` — the failures that are not ordinary: an input of an op or of a
  result, met in a state that covers the nodes before it, or a value that a rule reads.
* `producers_lowered_first` — an input misses its wire because of a producer that is never lowered,
  and never because of the order.
* `flagged_values_suffice` — the values of the flagged arguments are all that the rules read.
-/

namespace GraphLowering

open Source Target

/-! ### Failures of the steps -/

theorem checkPlace_ordinary {slots : List (Option Wire)} {k : Nat} {name : String} {e : Error}
    (h : checkPlace slots k name = .error e) : e.Ordinary := by
  unfold checkPlace at h
  split at h
  · obtain rfl := Except.error.inj h
    exact trivial
  · obtain rfl := Except.error.inj h
    exact trivial
  · simp at h

section Steps

variable {g : Source.Graph} {i : Nat} {v : Source.Node} (hv : g.node? i = some v) {e : Error}
include hv

theorem addParameter_ordinary {args : List Argument} {s : Run × List (Option Wire)}
    (h : addParameter g args s i = .error e) : e.Ordinary := by
  obtain ⟨run, slots⟩ := s
  rw [addParameter, Graph.node_of_some hv, except_ok_bind] at h
  obtain h | ⟨declared, -, h⟩ := except_bind_eq_error.mp h
  · exact Node.attrOfKind_ordinary h
  obtain h | ⟨k, -, h⟩ := except_bind_eq_error.mp h
  · exact position_ordinary h
  obtain h | ⟨_, -, h⟩ := except_bind_eq_error.mp h
  · exact checkPlace_ordinary h
  split at h
  · obtain rfl := Except.error.inj h
    exact trivial
  · obtain h | ⟨element, -, h⟩ := except_bind_eq_error.mp h
    · unfold DataType.element at h
      split at h
      · simp at h
      · obtain rfl := Except.error.inj h
        exact trivial
    obtain h | ⟨shape, -, h⟩ := except_bind_eq_error.mp h
    · obtain ⟨dim, -, h⟩ := except_mapM_error h
      split at h
      · simp at h
      · obtain rfl := Except.error.inj h
        exact trivial
    · obtain h | ⟨_, -, h⟩ := except_bind_eq_error.mp h
      · cases h
      · cases h

/-- An op fails for an ordinary reason, at one of its inputs, or in its rule. -/
theorem lowerOp_error {statics : List (Option Tensor)} {run : Run}
    (h : lowerOp g statics run i = .error e) :
    e.Ordinary ∨ (∃ slot, resolveInput g run.outputs v slot = .error e) ∨
    ∃ kind ws target, OpKind.ofName? v.op = some kind ∧
      (kind.operandSlots.of v).mapM (resolveInput g run.outputs v) = .ok ws ∧
      kind.rule ⟨v, g, statics⟩ ws run.target = .error e target := by
  rw [lowerOp, Graph.node_of_some hv, except_ok_bind] at h
  split at h
  · obtain rfl := Except.error.inj h
    exact .inl trivial
  case h_2 kind hkind =>
    obtain h | ⟨ws, hws, h⟩ := except_bind_eq_error.mp h
    · obtain ⟨slot, -, hslot⟩ := except_mapM_error h
      exact .inr (.inl ⟨slot, hslot⟩)
    obtain h | ⟨_, -, h⟩ := except_bind_eq_error.mp h
    · obtain ⟨-, rfl⟩ := needRoom_eq_error.mp h
      exact .inl trivial
    obtain h | ⟨_, -, h⟩ := except_bind_eq_error.mp h
    · unfold Run.emitting at h
      split at h
      · simp at h
      case h_2 target hrule =>
        obtain rfl := Except.error.inj h
        exact .inr (.inr ⟨kind, ws, target, hkind, hws, hrule⟩)
    · cases h

theorem addResult_error {outputs : OutputMap} {slots : List (Option Wire)}
    (h : addResult g outputs slots i = .error e) :
    e.Ordinary ∨ resolveInput g outputs v 0 = .error e := by
  rw [addResult, Graph.node_of_some hv, except_ok_bind] at h
  split at h
  · obtain rfl := Except.error.inj h
    exact .inl trivial
  · obtain h | ⟨k, -, h⟩ := except_bind_eq_error.mp h
    · exact .inl (position_ordinary h)
    obtain h | ⟨_, -, h⟩ := except_bind_eq_error.mp h
    · exact .inl (checkPlace_ordinary h)
    obtain h | ⟨_, -, h⟩ := except_bind_eq_error.mp h
    · exact .inr h
    · cases h

end Steps

/-- A rule fails for an ordinary reason, or because of a value that it reads on a declared slot. -/
theorem Context.Fails.ordinary_or_static {slots : Nat → Prop} {ctx ctx' : Context} {e e' : Error}
    (h : ctx.Fails slots ctx' e e') :
    e.Ordinary ∨ ∃ slot, slots slot ∧ ctx.staticInput slot = .error e := by
  cases h with
  | refuse cause hcause =>
    left
    cases cause with
    | valueNotSupplied slot index => exact absurd rfl (hcause slot index)
    | _ => exact trivial
  | missing => exact .inl trivial
  | kind => exact .inl trivial
  | inputCount => exact .inl trivial
  | inputCountAtLeast => exact .inl trivial
  | plain h => cases h <;> exact .inl trivial
  | static slot hslot he _ => exact .inr ⟨slot, hslot, he⟩

/-! ### Failures of a run -/

/-- A slot of the node at place `i` has no wire in a run behind the nodes `done`. -/
def Unresolved (g : Source.Graph) (done : List Nat) (i slot : Nat) (e : Error) : Prop :=
  ∃ run v, Covers g done run ∧ g.node? i = some v ∧ resolveInput g run.outputs v slot = .error e

/-- The rule of the op at place `i` reads a slot without a known value. -/
def Unvalued (g : Source.Graph) (statics : List (Option Tensor)) (i slot : Nat) (e : Error) :
    Prop :=
  ∃ v kind, g.node? i = some v ∧ OpKind.ofName? v.op = some kind ∧
    kind.staticSlots.contains v slot = true ∧
    (⟨v, g, statics⟩ : Context).staticInput slot = .error e

namespace Compiled

variable {c : Compiled} {args : List Argument} {e : Error}

theorem lower_eq_error (h : c.lower args = .error e) :
    c.parts.params.foldlM (addParameter c.graph args)
      ({}, List.replicate c.parts.params.length none) = .error e ∨
    ∃ s, c.parts.params.foldlM (addParameter c.graph args)
        ({}, List.replicate c.parts.params.length none) = .ok s ∧
      (c.parts.ops.foldlM (lowerOp c.graph (c.statics args)) s.1 = .error e ∨
      ∃ run, c.parts.ops.foldlM (lowerOp c.graph (c.statics args)) s.1 = .ok run ∧
        c.parts.returns.foldlM (addResult c.graph run.outputs)
          (List.replicate c.parts.returns.length none) = .error e) := by
  obtain h | ⟨s, hs, h⟩ := except_bind_eq_error.mp h
  · exact .inl h
  refine .inr ⟨s, hs, ?_⟩
  obtain h | ⟨run, hrun, h⟩ := except_bind_eq_error.mp h
  · exact .inl h
  refine .inr ⟨run, hrun, ?_⟩
  obtain h | ⟨results, -, h⟩ := except_bind_eq_error.mp h
  · exact h
  · cases h

namespace Prepared

variable (hc : c.Prepared)
include hc

/-- An op that fails does so for an ordinary reason, at an input, or at a value that its rule
reads. -/
theorem op_error {start : Run} (hstart : Covers c.graph c.parts.params start)
    {statics : List (Option Tensor)}
    (h : c.parts.ops.foldlM (lowerOp c.graph statics) start = .error e) :
    e.Ordinary ∨
    (∃ done i rest slot, c.parts.ops = done ++ i :: rest ∧
      Unresolved c.graph (c.parts.params ++ done) i slot e) ∨
    ∃ i ∈ c.parts.ops, ∃ slot, Unvalued c.graph statics i slot e := by
  obtain ⟨done, i, rest, run, hsplit, hdone, hi⟩ := foldlM_error_split h
  have hstate := hc.ops_done hstart hsplit hdone
  have hmem : i ∈ c.parts.ops := by simp [hsplit]
  obtain ⟨v, hv⟩ := hc.node?_of_mem_ops hmem
  obtain hordinary | ⟨slot, hslot⟩ | ⟨kind, ws, target, hkind, hws, hrule⟩ := lowerOp_error hv hi
  · exact .inl hordinary
  · exact .inr (.inl ⟨done, i, rest, slot, hsplit, run, v, hstate.covers, hv, hslot⟩)
  · have hlength := (except_mapM_eq_ok.mp hws).length_eq.symm
    have hfails := OpKind.rule_error (hstate.covers.has_of_mapM hc.wf hv hws) hlength hrule
    obtain hordinary | ⟨slot, hslot, hstatic⟩ := hfails.ordinary_or_static
    · exact .inl hordinary
    · exact .inr (.inr ⟨i, hmem, slot, v, kind, hv, hkind, hslot, hstatic⟩)

/-- A run fails for an ordinary reason, at an input of an op behind the ops before it, at the input
of a result behind all ops, or at a value that a rule reads. -/
theorem lower_error (h : c.lower args = .error e) :
    e.Ordinary ∨
    (∃ done i rest slot, c.parts.ops = done ++ i :: rest ∧
      Unresolved c.graph (c.parts.params ++ done) i slot e) ∨
    (∃ i, Unresolved c.graph (c.parts.params ++ c.parts.ops) i 0 e) ∨
    ∃ i ∈ c.parts.ops, ∃ slot, Unvalued c.graph (c.statics args) i slot e := by
  -- the three parts of a run, each split at the step that fails
  obtain h | ⟨s, hs, h | ⟨run, hrun, h⟩⟩ := lower_eq_error h
  · obtain ⟨done, i, rest, s, hsplit, -, hi⟩ := foldlM_error_split h
    obtain ⟨v, hv⟩ := hc.node?_of_mem_params (i := i) (by simp [hsplit])
    exact .inl (addParameter_ordinary hv hi)
  · obtain hordinary | hinput | hvalue := hc.op_error (hc.params_done hs).covers h
    · exact .inl hordinary
    · exact .inr (.inl hinput)
    · exact .inr (.inr (.inr hvalue))
  · have hstate := hc.ops_done (hc.params_done hs).covers (List.append_nil _).symm hrun
    obtain ⟨done, i, rest, slots, hsplit, -, hi⟩ := foldlM_error_split h
    obtain ⟨v, hv⟩ := hc.node?_of_mem_returns (i := i) (by simp [hsplit])
    obtain hordinary | hinput := addResult_error hv hi
    · exact .inl hordinary
    · exact .inr (.inr (.inl ⟨i, run, v, hstate.covers, hv, hinput⟩))

/-- A producer for which nothing has been kept behind all the nodes that lead to its consumer is
neither an argument nor an op. -/
theorem not_lowered_role {done : List Nat} {run : Run} (hcovers : Covers c.graph done run) {j : Nat}
    {producer : Source.Node} (hp : c.graph.node? j = some producer)
    (hnone : run.outputs.get? producer.name = none)
    (hdone : j ∈ c.parts.params ++ c.parts.ops → j ∈ done) :
    producer.isSentinel = true ∨ producer.isReturn = true := by
  have hnot : j ∉ c.parts.params ++ c.parts.ops := by
    intro hj
    obtain ⟨outputs, hget⟩ := hcovers.kept j (hdone hj) producer hp
    rw [hnone] at hget
    simp at hget
  rw [List.mem_append, hc.mem_params, hc.mem_ops, Graph.is_of_node? _ hp, Graph.is_of_node? _ hp]
    at hnot
  obtain hrole | hrole | hrole | hrole := producer.role_cases
  · exact .inl hrole
  · exact absurd (.inl hrole) hnot
  · exact .inr hrole
  · exact absurd (.inr hrole) hnot

end Prepared

end Compiled

/-- A slot without a wire fails as such. -/
theorem Unresolved.eq_inputNotFound {g : Source.Graph} (wf : g.WellFormed) {done : List Nat}
    {i slot : Nat} {e : Error} (h : Unresolved g done i slot e) :
    ∃ consumer cause, e = .inputNotFound consumer slot cause := by
  obtain ⟨run, v, -, hv, herror⟩ := h
  obtain herror | ⟨j, output, producer, -, -, ⟨-, herror⟩ | herror⟩ :=
    resolveInput_error wf hv herror
  · exact ⟨_, _, herror⟩
  · exact ⟨_, _, herror⟩
  · exact ⟨_, _, herror⟩

/-! ### Producers come first -/

/-- Slot `slot` of some node is fed by a node `name` that is neither an argument nor an op. -/
def Source.Graph.FedByMark (g : Source.Graph) (slot : Nat) (name : String) : Prop :=
  ∃ i j output producer, g.Carries j output i slot ∧ g.node? j = some producer ∧
    producer.name = name ∧ (producer.isSentinel = true ∨ producer.isReturn = true)

/-- An input that misses its wire behind all nodes that lead to it has no edge, a producer that is
neither an argument nor an op, or a producer that has left the output slot empty. -/
theorem Unresolved.cause {c : Compiled} (hc : c.Prepared) {done : List Nat} {i slot slot' : Nat}
    {consumer : String} {cause : InputFault}
    (h : Unresolved c.graph done i slot (.inputNotFound consumer slot' cause))
    (hdone : ∀ j, c.graph.Leads j i → j ∈ c.parts.params ++ c.parts.ops → j ∈ done) :
    cause ≠ .noData ∧ ∀ name, cause = .notLowered name → c.graph.FedByMark slot' name := by
  obtain ⟨run, v, hcovers, hv, herror⟩ := h
  obtain herror | ⟨j, output, producer, hcarries, hp, ⟨hnone, herror⟩ | herror⟩ :=
    resolveInput_error hc.wf hv herror
  · obtain ⟨-, -, rfl⟩ := Error.inputNotFound.inj herror
    exact ⟨by simp, by simp⟩
  · obtain ⟨-, rfl, rfl⟩ := Error.inputNotFound.inj herror
    have hrole := hc.not_lowered_role hcovers hp hnone (hdone j hcarries.leads)
    refine ⟨by simp, fun name hname => ?_⟩
    exact ⟨i, j, output, producer, hcarries, hp, InputFault.notLowered.inj hname, hrole⟩
  · obtain ⟨-, -, rfl⟩ := Error.inputNotFound.inj herror
    exact ⟨by simp, by simp⟩

/-- A run meets an input without a wire behind all nodes that lead to it. -/
theorem Compiled.Prepared.lower_inputNotFound {c : Compiled} (hc : c.Prepared)
    {args : List Argument} {consumer : String} {slot : Nat} {cause : InputFault}
    (h : c.lower args = .error (.inputNotFound consumer slot cause)) :
    cause ≠ .noData ∧ ∀ name, cause = .notLowered name → c.graph.FedByMark slot name := by
  obtain hordinary | ⟨done, i, rest, slot', hsplit, hinput⟩ | ⟨i, hinput⟩ | ⟨i, -, slot', hvalue⟩ :=
    hc.lower_error h
  · exact absurd hordinary (by simp [Error.Ordinary])
  -- all arguments come before the ops, and an op behind those that lead to it
  · refine hinput.cause hc fun j hleads hj => ?_
    obtain hj | hj := List.mem_append.mp hj
    · exact List.mem_append_left _ hj
    · exact List.mem_append_right _ (hc.before hsplit hleads hj)
  · exact hinput.cause hc fun j _ hj => hj
  · obtain ⟨v, kind, hv, -, -, hstatic⟩ := hvalue
    obtain hordinary | ⟨_, _, _, _, -, -, -, -, -, herror⟩ :=
      Context.staticInput_error ⟨v, c.graph, c.statics args⟩ hc.wf hv hstatic
    · exact absurd hordinary (by simp [Error.Ordinary])
    · simp [Context.refuse] at herror

/-- **Producers are lowered before their consumers.** No run fails at an edge without data. A run
fails at a producer that has not been lowered only if the producer is a sentinel or a result, which
are never lowered; so it does not if data flows from arguments and ops only. -/
theorem producers_lowered_first {g : Source.Graph} {c : Compiled} (hbuilt : g.Built)
    (hprepare : prepare g = .ok c) (args : List Argument) :
    (∀ node slot, c.lower args ≠ .error (.inputNotFound node slot .noData)) ∧
    (∀ node slot name, c.lower args = .error (.inputNotFound node slot (.notLowered name)) →
      ∃ j producer, g.find? name = some j ∧ g.node? j = some producer ∧
        (producer.op = "_SOURCE" ∨ producer.op = "_SINK" ∨ producer.op = "_Retval")) ∧
    ((∀ j output i slot, g.Carries j output i slot →
        g.is Node.isArgument j = true ∨ g.is Node.isOrdinary j = true) →
      ∀ node slot name, c.lower args ≠ .error (.inputNotFound node slot (.notLowered name))) := by
  have hc := prepared_of_prepare hbuilt.wellFormed hprepare
  obtain ⟨rfl, -⟩ := prepare_eq_ok hprepare
  refine ⟨?_, ?_, ?_⟩
  · intro node slot h
    exact (hc.lower_inputNotFound h).1 rfl
  · intro node slot name h
    obtain ⟨i, j, output, producer, -, hp, hname, hrole⟩ := (hc.lower_inputNotFound h).2 name rfl
    refine ⟨j, producer, (hc.wf.find name j).mpr ⟨producer, hp, hname⟩, hp, ?_⟩
    rw [Node.isSentinel_iff, Node.isReturn_iff, or_assoc] at hrole
    exact hrole
  · intro hflow node slot name h
    obtain ⟨i, j, output, producer, hcarries, hp, -, hrole⟩ := (hc.lower_inputNotFound h).2 name rfl
    have hproducer := hflow j output i slot hcarries
    rw [Graph.is_of_node? _ hp, Graph.is_of_node? _ hp] at hproducer
    obtain harg | hordinary := hproducer
    · obtain hrole | hrole := hrole
      · exact Node.not_isSentinel_of_isArgument harg hrole
      · exact Node.not_isReturn_of_isArgument harg hrole
    · obtain ⟨hsentinel, -, hreturn⟩ := Node.isOrdinary_iff.mp hordinary
      obtain hrole | hrole := hrole
      · exact hsentinel hrole
      · exact hreturn hrole

/-- An argument is lowered, and the result is fed by a sentinel. -/
def sentinelResult : Source.Graph := Graph.build [
  .node { name := "x", op := "_Arg",
          attrs := (NameTable.empty.insert "T" (.type .float)).insert "index" (.int 0) },
  .node { name := "y", op := "Relu" },
  .node { name := "begin", op := "_SOURCE" },
  .node { name := "out", op := "_Retval", attrs := NameTable.empty.insert "index" (.int 0) },
  .edge 0 0 1 0, .edge 2 0 3 0, .control 1 3]

theorem sentinelResult_not_lowered :
    ∃ c, prepare sentinelResult = .ok c ∧
      c.lower [⟨.float, [2], none⟩] = .error (.inputNotFound "out" 0 (.notLowered "begin")) ∧
      ∃ j producer, sentinelResult.find? "begin" = some j ∧
        sentinelResult.node? j = some producer ∧
        (producer.op = "_SOURCE" ∨ producer.op = "_SINK" ∨ producer.op = "_Retval") := by
  have hprepare : prepare sentinelResult = .ok ⟨sentinelResult, ⟨[0], [3], [1]⟩, [false]⟩ := by rfl
  have herror : (⟨sentinelResult, ⟨[0], [3], [1]⟩, [false]⟩ : Compiled).lower
      [⟨.float, [2], none⟩] = .error (.inputNotFound "out" 0 (.notLowered "begin")) := by rfl
  refine ⟨_, hprepare, herror, ?_⟩
  exact (producers_lowered_first ⟨_, rfl⟩ hprepare _).2.1 "out" 0 "begin" herror

/-! ### The values of the flagged arguments -/

theorem Compiled.getElem?_statics (c : Compiled) (args : List Argument) (k : Nat) :
    (c.statics args)[k]? = args[k]?.map fun arg => if c.isStatic k then arg.value else none := by
  rw [statics, List.getElem?_map, List.getElem?_zipIdx]
  cases args[k]? with
  | none => rfl
  | some arg => simp

/-- The known values of arguments are those that flagged ones come with. -/
theorem Context.argumentValue?_statics_eq_some {c : Compiled} {args : List Argument} {k : Nat}
    {value : Tensor} {v : Source.Node} {g : Source.Graph} :
    (⟨v, g, c.statics args⟩ : Context).argumentValue? k = some value ↔
      c.isStatic k = true ∧ ∃ arg, args[k]? = some arg ∧ arg.value = some value := by
  have hk : (0 : Int) ≤ k := Int.natCast_nonneg k
  rw [argumentValue?, if_pos hk, Int.toNat_natCast, c.getElem?_statics]
  cases args[k]? with
  | none => simp
  | some arg => cases hflag : c.isStatic k <;> simp

theorem Context.argumentValue?_statics {c : Compiled} {args : List Argument} {k : Nat}
    {arg : Argument} {value : Tensor} (hflag : c.isStatic k = true) (harg : args[k]? = some arg)
    (hvalue : arg.value = some value) (v : Source.Node) :
    (⟨v, c.graph, c.statics args⟩ : Context).argumentValue? k = some value :=
  argumentValue?_statics_eq_some.mpr ⟨hflag, arg, harg, hvalue⟩

theorem position_eq_ok {v : Source.Node} {k : Nat} (h : position v = .ok k) :
    v.int "index" = .ok (k : Int) := by
  obtain ⟨index, hindex, h⟩ := except_bind_eq_ok.mp h
  split at h
  · cases h
  case isFalse hneg =>
    obtain rfl : index.toNat = k := Except.ok.inj h
    rw [hindex, Int.toNat_of_nonneg (Int.not_lt.mp hneg)]

namespace Compiled.Prepared

variable {c : Compiled} (hc : c.Prepared)
include hc

/-- An argument that feeds a slot on which a rule needs a value is flagged. -/
theorem isStatic_of_carries {i j output slot : Nat} {v producer : Source.Node}
    (hv : c.graph.node? i = some v) (hneeds : needsValue v slot = true)
    (hcarries : c.graph.Carries j output i slot) (hp : c.graph.node? j = some producer)
    (harg : producer.isArgument = true) :
    ∃ k, position producer = .ok k ∧ k < c.parts.params.length ∧ c.isStatic k = true := by
  have hj : j ∈ c.parts.params := hc.mem_params.mpr (Graph.is_iff.mpr ⟨producer, hp, harg⟩)
  obtain ⟨u, k, hu, hk, hlt⟩ := hc.param_position hj
  obtain rfl : u = producer := Option.some.inj (hu.symm.trans hp)
  -- edges into sentinels are passed over, but no rule reads them
  have hsentinel : ¬ v.isSentinel = true := by
    rw [Node.isSentinel_iff]
    intro hop
    have hkind : OpKind.ofName? v.op = none := by
      obtain hop | hop := hop
      · rw [hop]
        rfl
      · rw [hop]
        rfl
    rw [needsValue, hkind] at hneeds
    exact Bool.false_ne_true hneeds
  refine ⟨k, hk, hlt, (hc.isStatic k).mpr ⟨j, hj, u, hp, hk, ?_⟩⟩
  exact (feedsStaticSlot_iff hc.wf hp).mpr ⟨output, i, slot, v, hcarries, hv, hsentinel, hneeds⟩

/-- A rule misses the value of an argument only on a slot that this argument feeds, and the argument
is flagged. -/
theorem isStatic_of_unvalued {statics : List (Option Tensor)} {i slot slot' : Nat}
    {node op : String} {index : Int}
    (h : Unvalued c.graph statics i slot' (.rule node op (.valueNotSupplied slot index))) :
    ∃ v j output producer, ∃ k : Nat, c.graph.node? i = some v ∧ c.graph.Carries j output i slot ∧
      c.graph.node? j = some producer ∧ producer.isArgument = true ∧ index = k ∧
      position producer = .ok k ∧ k < c.parts.params.length ∧ c.isStatic k = true ∧
      (⟨v, c.graph, statics⟩ : Context).argumentValue? k = none := by
  obtain ⟨v, kind, hv, hkind, hslot, hstatic⟩ := h
  obtain hordinary | ⟨j, output, producer, index', hcarries, hp, harg, hindex, hnone, herror⟩ :=
    Context.staticInput_error ⟨v, c.graph, statics⟩ hc.wf hv hstatic
  · exact absurd hordinary (by simp [Error.Ordinary])
  · obtain ⟨-, -, hcause⟩ := Error.rule.inj herror
    obtain ⟨rfl, rfl⟩ := RuleFault.valueNotSupplied.inj hcause
    have hneeds : needsValue v slot = true := by
      unfold needsValue
      rw [hkind]
      exact hslot
    obtain ⟨k, hk, hlt, hflag⟩ := hc.isStatic_of_carries hv hneeds hcarries hp harg
    obtain rfl : index = k := Except.ok.inj (hindex.symm.trans (position_eq_ok hk))
    exact ⟨v, j, output, producer, k, hv, hcarries, hp, harg, rfl, hk, hlt, hflag, hnone⟩

end Compiled.Prepared

/-- **The values of the flagged arguments are all that the rules read.** A run in which every
flagged argument comes with its value never misses one. And wherever the rule of an op misses the
value of an argument, whatever values are known and whatever its operands are, this argument feeds
the slot and is flagged. -/
theorem flagged_values_suffice {g : Source.Graph} {c : Compiled} (hbuilt : g.Built)
    (hprepare : prepare g = .ok c) :
    (∀ args : List Argument,
      (∀ k < c.parts.params.length, c.isStatic k = true →
        ∃ arg value, args[k]? = some arg ∧ arg.value = some value) →
      ∀ node op slot index, c.lower args ≠ .error (.rule node op (.valueNotSupplied slot index))) ∧
    ∀ i v kind statics ws target target' node op slot index,
      g.node? i = some v → OpKind.ofName? v.op = some kind →
      ws.length = (kind.operandSlots.of v).length → (∀ w ∈ ws, target.Has w) →
      kind.rule ⟨v, g, statics⟩ ws target =
        .error (.rule node op (.valueNotSupplied slot index)) target' →
      ∃ j output producer, ∃ k : Nat, g.Carries j output i slot ∧ g.node? j = some producer ∧
        producer.isArgument = true ∧ index = k ∧ position producer = .ok k ∧
        c.isStatic k = true := by
  have hc := prepared_of_prepare hbuilt.wellFormed hprepare
  obtain ⟨rfl, -⟩ := prepare_eq_ok hprepare
  refine ⟨?_, ?_⟩
  · intro args hvalues node op slot index h
    obtain hordinary | ⟨done, i, rest, slot', -, hinput⟩ | ⟨i, hinput⟩ | ⟨i, -, slot', hvalue⟩ :=
      hc.lower_error h
    · exact absurd hordinary (by simp [Error.Ordinary])
    · obtain ⟨consumer, cause, herror⟩ := hinput.eq_inputNotFound hc.wf
      cases herror
    · obtain ⟨consumer, cause, herror⟩ := hinput.eq_inputNotFound hc.wf
      cases herror
    · obtain ⟨v, _, _, _, k, -, -, -, -, -, -, hlt, hflag, hnone⟩ := hc.isStatic_of_unvalued hvalue
      obtain ⟨arg, value, harg, hvalue⟩ := hvalues k hlt hflag
      rw [Context.argumentValue?_statics hflag harg hvalue] at hnone
      simp at hnone
  · intro i v kind statics ws target target' node op slot index hv hkind hlength hws hrule
    have hfails := OpKind.rule_error hws hlength hrule
    obtain hordinary | ⟨slot', hslot, hstatic⟩ := hfails.ordinary_or_static
    · exact absurd hordinary (by simp [Error.Ordinary])
    · obtain ⟨_, j, output, producer, k, -, hcarries, hp, harg, hindex, hk, -, hflag, -⟩ :=
        hc.isStatic_of_unvalued ⟨v, kind, hv, hkind, hslot, hstatic⟩
      exact ⟨j, output, producer, k, hcarries, hp, harg, hindex, hk, hflag⟩

/-- A reshape whose target shape is an argument. -/
def argumentReshape : Source.Graph := Graph.build [
  .node { name := "x", op := "_Arg",
          attrs := (NameTable.empty.insert "T" (.type .float)).insert "index" (.int 0) },
  .node { name := "dims", op := "_Arg",
          attrs := (NameTable.empty.insert "T" (.type .int64)).insert "index" (.int 1) },
  .node { name := "y", op := "Reshape" },
  .node { name := "out", op := "_Retval", attrs := NameTable.empty.insert "index" (.int 0) },
  .edge 0 0 2 0, .edge 1 0 2 1, .edge 2 0 3 0]

theorem argumentReshape_needs_dims :
    ∃ c, prepare argumentReshape = .ok c ∧
      c.lower [⟨.float, [2, 3], none⟩, ⟨.int64, [1], none⟩] =
        .error (.rule "y" "Reshape" (.valueNotSupplied 1 1)) ∧
      (∀ node op slot index,
        c.lower [⟨.float, [2, 3], none⟩, ⟨.int64, [1], some ⟨[1], .i64 #[6], rfl⟩⟩] ≠
          .error (.rule node op (.valueNotSupplied slot index))) ∧
      ∃ j output producer, ∃ k : Nat, argumentReshape.Carries j output 2 1 ∧
        argumentReshape.node? j = some producer ∧ producer.isArgument = true ∧ (1 : Int) = k ∧
        position producer = .ok k ∧ c.isStatic k = true := by
  have hprepare : prepare argumentReshape =
      .ok ⟨argumentReshape, ⟨[1, 0], [3], [2]⟩, [false, true]⟩ := by rfl
  have hsuffice := flagged_values_suffice ⟨_, rfl⟩ hprepare
  refine ⟨_, hprepare, by rfl, hsuffice.1 _ ?_, ?_⟩
  · intro k hk hflag
    have hk : k < 2 := hk
    interval_cases k
    · exact absurd hflag Bool.false_ne_true
    · exact ⟨_, _, rfl, rfl⟩
  · -- the rule alone, on a parameter and without any known value
    refine hsuffice.2 2 _ .reshape [] [0] (Graph.push {} (.parameter 0) [] ⟨.f32, [2, 3]⟩) _ "y"
      "Reshape" 1 1 rfl rfl rfl ?_ rfl
    intro w hw
    obtain rfl := List.mem_singleton.mp hw
    exact ⟨_, rfl⟩

end GraphLowering
