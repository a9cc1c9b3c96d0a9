import Mathlib
import GraphLowering.Proofs.Run

/-!
# The signature of a lowered function

The argument and return nodes come in the order of the search, and each asks for a position. A run
that succeeds has put every parameter and every result where its node asked for it: no position
stays empty, and none is shifted when the lists are read off.

* `Signature` — what the argument and return nodes of a graph say of a lowered function.
* `lowered_signature` — every function that a run gives has that signature.
-/

namespace GraphLowering

open Source Target

/-- What the argument and return nodes of a graph say of a function that has been lowered from it
for the given arguments, with the outputs kept for the nodes. -/
structure Signature (g : Source.Graph) (args : List Argument) (outputs : OutputMap) (f : Function) :
    Prop where
  /-- The arguments have all positions below their number, each once. -/
  argument_positions : ((g.places Node.isArgument).map g.position?).Perm
    ((List.range (g.places Node.isArgument).length).map some)
  /-- The results have all positions below their number, each once. -/
  result_positions : ((g.places Node.isReturn).map g.position?).Perm
    ((List.range (g.places Node.isReturn).length).map some)
  parameters_length : f.parameters.length = (g.places Node.isArgument).length
  /-- At the position of an argument stands its parameter, with the element type that the argument
  declares and the shape that is supplied for it. -/
  parameter : ∀ i v k, g.node? i = some v → v.isArgument = true → position v = .ok k →
    ∃ w declared element arg shape, f.parameters[k]? = some w ∧
      f.graph.nodes[w]? = some ⟨w, .parameter k, [], ⟨element, shape⟩⟩ ∧
      v.type "T" = .ok declared ∧ declared.element? = some element ∧
      args[k]? = some arg ∧ arg.shape = shape.map Int.ofNat
  /-- There are no other parameters. -/
  parameter_once : ∀ w u k, f.graph.IsParameter w k u → f.parameters.count w = 1
  results_length : f.results.length = (g.places Node.isReturn).length
  /-- At the position of a result stands the wire kept for the output slot that the only data edge
  into it leaves from. -/
  result : ∀ i v k, g.node? i = some v → v.isReturn = true → position v = .ok k →
    ∃ j output producer wires w,
      (∀ j' output' slot, g.Carries j' output' i slot ↔ j' = j ∧ output' = output ∧ slot = 0) ∧
      g.node? j = some producer ∧ outputs.get? producer.name = some wires ∧
      wires[output]? = some (some w) ∧ f.results[k]? = some w

/-! ### The parameters -/

theorem DataType.element_eq_ok {type : DataType} {element : ElementType} :
    type.element = .ok element ↔ type.element? = some element := by
  unfold DataType.element
  cases type.element? with
  | none => simp
  | some e => simp

/-- A supplied shape has no negative size. -/
theorem Shape.ofDims_eq_ok {dims : List Int} {shape : Shape} (h : Shape.ofDims dims = .ok shape) :
    dims = shape.map Int.ofNat := by
  have halike := except_mapM_eq_ok.mp h
  have hsizes : List.Forall₂ (fun d n => d = Int.ofNat n) dims shape := by
    refine halike.imp fun d n hd => ?_
    split at hd
    case isTrue hnonneg =>
      obtain rfl := Except.ok.inj hd
      exact (Int.toNat_of_nonneg hnonneg).symm
    case isFalse => simp at hd
  clear h halike
  induction hsizes with
  | nil => rfl
  | cons hd _ ih => rw [hd, ih, List.map_cons]

namespace ParamsDone

variable {g : Source.Graph} {args : List Argument} {n : Nat} {params : List Nat} {run : Run}
  {slots : List (Option Wire)} (h : ParamsDone g args n params run slots)
include h

/-- The wire at a position is that of a parameter with this position. -/
theorem node_of_slot {k : Nat} {w : Wire} (hslot : slots[k]? = some (some w)) :
    ∃ type, run.target.nodes[w]? = some ⟨w, .parameter k, [], type⟩ := by
  obtain ⟨i, hi, hpos⟩ := h.filling.origin k w hslot
  obtain ⟨v, k', type, w', hv, hsupplied, hslot', hnode, -⟩ := h.entered i hi
  obtain rfl : k' = k := by
    rw [Graph.position?_of_ok hv hsupplied.1] at hpos
    exact Option.some.inj hpos
  obtain rfl : w' = w := by
    rw [hslot] at hslot'
    simpa using hslot'.symm
  exact ⟨type, hnode⟩

variable (hfull : params.length = slots.length)
include hfull

/-- No wire is a parameter at two positions. -/
theorem parameters_nodup : (slots.filterMap id).Nodup := by
  rw [List.nodup_iff_getElem?_ne_getElem?]
  intro k k' hlt hk' hsame
  obtain ⟨w, hw⟩ : ∃ w, (slots.filterMap id)[k']? = some w := ⟨_, List.getElem?_eq_getElem hk'⟩
  rw [hw] at hsame
  obtain ⟨type, hnode⟩ := h.node_of_slot ((h.filling.getElem?_filterMap hfull).mp hsame)
  obtain ⟨type', hnode'⟩ := h.node_of_slot ((h.filling.getElem?_filterMap hfull).mp hw)
  rw [hnode] at hnode'
  -- a node has one op, so it is the parameter of one position
  have hkk : k = k' := by simpa using congrArg Target.Node.op (Option.some.inj hnode')
  omega

theorem count_parameter {w : Wire} {k : Nat} {u : Target.Node}
    (hu : run.target.IsParameter w k u) : (slots.filterMap id).count w = 1 := by
  obtain ⟨k', hslot, -⟩ := h.origin w u hu.1
  have hget := (h.filling.getElem?_filterMap hfull).mpr hslot
  exact List.count_eq_one_of_mem (h.parameters_nodup hfull) (List.mem_of_getElem? hget)

end ParamsDone

/-! ### The whole signature -/

/-- The places with a role have the positions that the filled slots say. -/
theorem Source.Graph.positions_perm {g : Source.Graph} {role : Source.Node → Bool} {part : List Nat}
    {slots : List (Option Wire)} (hpart : part.Perm (g.places role))
    (hfilling : Filling g.position? part slots) (hfull : part.length = slots.length) :
    ((g.places role).map g.position?).Perm ((List.range (g.places role).length).map some) := by
  have hperm := hfilling.perm hfull
  rw [← hfull, hpart.length_eq] at hperm
  exact (hpart.map _).symm.trans hperm

/-- **Every lowered function has the signature that its graph declares**, over the arena and the
outputs that the run has kept behind its last op. -/
theorem lowered_signature {g : Source.Graph} {c : Compiled} {args : List Argument} {f : Function}
    (hbuilt : g.Built) (hprepare : prepare g = .ok c) (hlower : c.lower args = .ok f) :
    ∃ run slots, c.runOps args = .ok (run, slots) ∧ f.graph = run.target ∧
      Signature g args run.outputs f := by
  have hc := prepared_of_prepare hbuilt.wellFormed hprepare
  obtain ⟨rfl, -⟩ := prepare_eq_ok hprepare
  obtain ⟨start, run, parameters, results, hrunOps, hstart, hrun, hdone, rfl⟩ :=
    hc.lower_spec hlower
  have hfull : c.parts.params.length = parameters.length := hstart.length.symm
  have hfull' : c.parts.returns.length = results.length := hdone.length.symm
  refine ⟨run, parameters, hrunOps, rfl, ?_⟩
  refine ⟨Graph.positions_perm hc.params hstart.filling hfull,
    Graph.positions_perm hc.returns hdone.filling hfull', ?_, ?_, ?_, ?_, ?_⟩
  · exact (hstart.filling.length_filterMap hfull).trans hc.params.length_eq
  · intro i v k hv harg hk
    have hi : i ∈ c.parts.params := hc.mem_params.mpr (Graph.is_iff.mpr ⟨v, hv, harg⟩)
    obtain ⟨u, k', type, w, hu, hsupplied, hslot, hnode, -⟩ := hstart.entered i hi
    obtain rfl : u = v := Option.some.inj (hu.symm.trans hv)
    obtain ⟨hk', declared, arg, hdeclared, harg, helement, hshape⟩ := hsupplied
    obtain rfl : k' = k := Except.ok.inj (hk'.symm.trans hk)
    exact ⟨w, declared, type.element, arg, type.shape,
      (hstart.filling.getElem?_filterMap hfull).mpr hslot, hrun.le.1 w _ hnode, hdeclared,
      DataType.element_eq_ok.mp helement, harg, Shape.ofDims_eq_ok hshape⟩
  -- the ops have appended no parameter, so it was made before them
  · intro w u k hu
    exact hstart.count_parameter hfull (hrun.parameters w k u hu)
  · exact (hdone.filling.length_filterMap hfull').trans hc.returns.length_eq
  · intro i v k hv hreturn hk
    have hi : i ∈ c.parts.returns := hc.mem_returns.mpr (Graph.is_iff.mpr ⟨v, hv, hreturn⟩)
    obtain ⟨u, k', w, hu, hone, hk', hw, hslot⟩ := hdone.returned i hi
    obtain rfl : u = v := Option.some.inj (hu.symm.trans hv)
    obtain rfl : k' = k := Except.ok.inj (hk'.symm.trans hk)
    obtain ⟨j, output, producer, wires, hcarries, hp, hget, hjoin⟩ :=
      (resolveInput_eq_ok hc.wf hv).mp hw
    exact ⟨j, output, producer, wires, w, hcarries.iff_of_inputs_eq_one hc.wf hv hone, hp, hget,
      Option.join_eq_some_iff.mp hjoin, (hdone.filling.getElem?_filterMap hfull').mpr hslot⟩

/-- Two arguments and two results, which the search meets in the order opposite to their positions.
-/
def crossedFunction : Source.Graph := Graph.build [
  .node { name := "a", op := "_Arg",
          attrs := (NameTable.empty.insert "T" (.type .float)).insert "index" (.int 0) },
  .node { name := "b", op := "_Arg",
          attrs := (NameTable.empty.insert "T" (.type .int32)).insert "index" (.int 1) },
  .node { name := "r", op := "Relu" },
  .node { name := "first", op := "_Retval", attrs := NameTable.empty.insert "index" (.int 0) },
  .node { name := "second", op := "_Retval", attrs := NameTable.empty.insert "index" (.int 1) },
  .edge 0 0 2 0, .edge 2 0 3 0, .edge 1 0 4 0]

theorem crossedFunction_signature :
    ∃ c f run slots, prepare crossedFunction = .ok c ∧
      c.lower [⟨.float, [2], none⟩, ⟨.int32, [], none⟩] = .ok f ∧ f.parameters = [1, 0] ∧
      c.runOps [⟨.float, [2], none⟩, ⟨.int32, [], none⟩] = .ok (run, slots) ∧
      f.graph = run.target ∧
      Signature crossedFunction [⟨.float, [2], none⟩, ⟨.int32, [], none⟩] run.outputs f := by
  have hprepare : prepare crossedFunction =
      .ok ⟨crossedFunction, ⟨[1, 0], [4, 3], [2]⟩, [false, false]⟩ := by rfl
  have hlower : (⟨crossedFunction, ⟨[1, 0], [4, 3], [2]⟩, [false, false]⟩ : Compiled).lower
      [⟨.float, [2], none⟩, ⟨.int32, [], none⟩] =
      .ok ⟨⟨#[⟨0, .parameter 1, [], ⟨.i32, []⟩⟩, ⟨1, .parameter 0, [], ⟨.f32, [2]⟩⟩,
        ⟨2, .unary .relu, [1], ⟨.f32, [2]⟩⟩]⟩, [1, 0], [2, 0]⟩ := by rfl
  obtain ⟨run, slots, hrun, hgraph, hsignature⟩ := lowered_signature ⟨_, rfl⟩ hprepare hlower
  exact ⟨_, _, run, slots, hprepare, hlower, rfl, hrun, hgraph, hsignature⟩

end GraphLowering
