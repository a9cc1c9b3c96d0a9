import Mathlib
import GraphLowering.Proofs.Failure

/-!
# Two ways to read an input

An input slot can be read as a wire, through the outputs that the run keeps for its producer, or as
a value, straight from the producer. The first way looks at the output slot that the edge leaves
from and the second does not. Arguments and constants fill their first output slot only, so the two
agree on the edges from there, and on all other edges a value is read where no wire is.

* `Run.KeepsFirst` — the run keeps a wire for the first output slot of a node and no others.
* `Holds` — the op of the target node that stands for a value read from its producer.
* `Compiled.Prepared.keepsFirst_of_argument`, `Compiled.Prepared.keepsFirst_of_constant` — what a
  run keeps for the nodes that values are read from.
* `static_read_resolves_first_output` — a value that is read is the one on the wire if the edge
  leaves from the first output slot, and there is no wire if it does not.
-/

namespace GraphLowering

open Source Target

/-! ### Nodes that fill their first output slot -/

/-- The run keeps wire `w` for the first output slot of the node with this name, and none for its
other ones. -/
def Run.KeepsFirst (run : Run) (name : String) (w : Wire) : Prop :=
  ∃ count, run.outputs.get? name = some (some w :: List.replicate count none)

/-- An edge from such a node leads to its wire or to an empty output slot. -/
theorem Run.KeepsFirst.resolveInput {g : Source.Graph} (wf : g.WellFormed) {run : Run}
    {i j output slot : Nat} {v producer : Source.Node} {w : Wire} (hv : g.node? i = some v)
    (hcarries : g.Carries j output i slot) (hp : g.node? j = some producer)
    (h : run.KeepsFirst producer.name w) :
    resolveInput g run.outputs v slot =
      if output = 0 then .ok w
      else .error (.inputNotFound v.name slot (.noOutput producer.name output)) := by
  obtain ⟨count, hget⟩ := h
  simp only [resolveInput_of_carries wf hv hcarries hp, hget]
  cases output with
  | zero => rfl
  | succ output =>
    have hempty : (some w :: List.replicate count none)[output + 1]?.join = none := by
      rw [List.getElem?_cons_succ, List.getElem?_replicate]
      split
      · rfl
      · rfl
    simp only [hempty]
    rw [if_neg (Nat.succ_ne_zero output)]

theorem Context.output_eq_ok {ctx : Context} {w : Wire} {outputs : Outputs}
    (h : ctx.output w = .ok outputs) : ∃ count, outputs = some w :: List.replicate count none := by
  unfold output setOutput noOutputs at h
  split at h
  case isTrue hfirst =>
    rw [List.length_replicate] at hfirst
    obtain ⟨count, hcount⟩ := Nat.exists_eq_succ_of_ne_zero hfirst.ne'
    obtain rfl := Except.ok.inj h
    exact ⟨count, by rw [hcount]; rfl⟩
  case isFalse => cases h

/-- A constant that is lowered appends its value, as its first output. -/
theorem Rule.constant_eq_ok {ctx : Context} {ws : List Wire} {g h : Target.Graph}
    {outputs : Outputs} (hrule : Rule.constant ctx ws g = .ok outputs h) :
    ∃ value, ctx.node.tensor "value" = .ok value ∧
      h = g.push (.constant value) [] ⟨value.type, value.shape⟩ ∧
      ctx.output g.size = .ok outputs := by
  obtain ⟨value, hvalue, hrule⟩ := Step.lift_bind_eq_ok.mp hrule
  refine ⟨value, hvalue, ?_⟩
  have hmade : (emitConstant value >>= fun w => (liftM (ctx.output w) : Emit Outputs)) g =
      .ok outputs h → h = g.push (.constant value) [] ⟨value.type, value.shape⟩ ∧
        ctx.output g.size = .ok outputs := by
    intro hmade
    rw [Step.bind_of_ok (show emitConstant value g = .ok g.size _ from rfl)] at hmade
    exact (Step.lift_eq_ok.mp hmade).symm
  cases hattr : ctx.node.attr? "dtype" with
  | none =>
    simp only [hattr] at hrule
    exact hmade hrule
  | some attr =>
    simp only [hattr] at hrule
    cases attr with
    | type type =>
      obtain ⟨element, -, hrule⟩ := Step.lift_bind_eq_ok.mp hrule
      split at hrule
      · rw [Step.bind_of_error (Step.throw_apply _ g)] at hrule
        cases hrule
      · exact hmade hrule
    | _ => exact hmade hrule

/-! ### The producers of values -/

/-- The op of a target node that stands for a value read from its producer: the value itself, or the
parameter of the argument that comes with the value. -/
inductive Holds (args : List Argument) (producer : Source.Node) (value : Tensor) : Op → Prop where
  | constant (hop : producer.op = "Const") : Holds args producer value (.constant value)
  | parameter (k : Nat) (arg : Argument) (hop : producer.isArgument = true)
      (hk : position producer = .ok k) (harg : args[k]? = some arg)
      (hvalue : arg.value = some value) : Holds args producer value (.parameter k)

namespace Compiled.Prepared

variable {c : Compiled} (hc : c.Prepared) {args : List Argument} {i j : Nat} {run : Run}
  (hmeets : c.Meets args i run) {producer : Source.Node} (hp : c.graph.node? j = some producer)
include hc hmeets hp

theorem keepsFirst_of_argument (harg : producer.isArgument = true) :
    ∃ k type w, position producer = .ok k ∧ run.KeepsFirst producer.name w ∧
      run.target.nodes[w]? = some ⟨w, .parameter k, [], type⟩ := by
  obtain ⟨done, rest, start, slots, -, hstart, hops⟩ := hc.meets_spec hmeets
  have hj : j ∈ c.parts.params := hc.mem_params.mpr (Graph.is_iff.mpr ⟨producer, hp, harg⟩)
  obtain ⟨u, k, type, w, hu, hsupplied, -, hnode, hget⟩ := hstart.entered j hj
  obtain rfl : u = producer := Option.some.inj (hu.symm.trans hp)
  exact ⟨k, type, w, hsupplied.1, ⟨0, hops.le.2 _ _ hget⟩, hops.le.1 w _ hnode⟩

/-- A constant that leads to the op has been lowered before it. -/
theorem keepsFirst_of_constant (hleads : c.graph.Leads j i) (hop : producer.op = "Const")
    {value : Tensor} (hvalue : producer.tensor "value" = .ok value) :
    ∃ type w, run.KeepsFirst producer.name w ∧
      run.target.nodes[w]? = some ⟨w, .constant value, [], type⟩ := by
  obtain ⟨done, rest, start, slots, hsplit, hstart, hops⟩ := hc.meets_spec hmeets
  have hordinary : producer.isOrdinary = true := by
    rw [Node.isOrdinary_iff, Node.isSentinel_iff, Node.isArgument_iff, Node.isReturn_iff, hop]
    decide
  have hj : j ∈ c.parts.ops := hc.mem_ops.mpr (Graph.is_iff.mpr ⟨producer, hp, hordinary⟩)
  obtain ⟨u, kind, ws, outputs, before, after, hu, hkind, -, -, -, hrule, -, hle, hget⟩ :=
    hops.lowered j (hc.before hsplit hleads hj)
  obtain rfl : u = producer := Option.some.inj (hu.symm.trans hp)
  obtain rfl : OpKind.constant = kind := by
    rw [hop] at hkind
    exact Option.some.inj hkind
  change Rule.constant _ ws before = .ok outputs after at hrule
  obtain ⟨value', hvalue', rfl, houtput⟩ := Rule.constant_eq_ok hrule
  obtain rfl : value' = value := Except.ok.inj (hvalue'.symm.trans hvalue)
  obtain ⟨count, rfl⟩ := Context.output_eq_ok houtput
  exact ⟨_, before.size, ⟨count, hget⟩, hle _ _ (Graph.node_push_self ..)⟩

end Compiled.Prepared

/-- **A value that is read is the one on the wire, if the edge leaves from the first output slot.**
Wherever a run meets an op and a value is read on one of its input slots, the target graph has a
node that holds this value. Reading the wire of the slot gives that node if the edge leaves from the
first output slot of the producer, and finds nothing if it leaves from another one. -/
theorem static_read_resolves_first_output {g : Source.Graph} {c : Compiled} {args : List Argument}
    {i slot : Nat} {run : Run} {v : Source.Node} {value : Tensor} (hbuilt : g.Built)
    (hprepare : prepare g = .ok c) (hmeets : c.Meets args i run) (hv : g.node? i = some v)
    (hread : (⟨v, g, c.statics args⟩ : Context).staticInput slot = .ok value) :
    ∃ j output producer w u, g.Carries j output i slot ∧ g.node? j = some producer ∧
      run.target.nodes[w]? = some u ∧ Holds args producer value u.op ∧
      resolveInput g run.outputs v slot =
        if output = 0 then .ok w
        else .error (.inputNotFound v.name slot (.noOutput producer.name output)) := by
  have hc := prepared_of_prepare hbuilt.wellFormed hprepare
  obtain ⟨rfl, -⟩ := prepare_eq_ok hprepare
  obtain ⟨j, output, producer, hcarries, hp, ⟨harg, index, hindex, hknown⟩ | ⟨hop, hvalue⟩⟩ :=
    Context.staticInput_eq_ok ⟨v, c.graph, c.statics args⟩ hc.wf hv hread
  · obtain ⟨k, type, w, hk, hfirst, hnode⟩ := hc.keepsFirst_of_argument hmeets hp harg
    obtain rfl : index = k := Except.ok.inj (hindex.symm.trans (position_eq_ok hk))
    obtain ⟨-, arg, hget, hvalue⟩ := Context.argumentValue?_statics_eq_some.mp hknown
    exact ⟨j, output, producer, w, _, hcarries, hp, hnode, .parameter k arg harg hk hget hvalue,
      hfirst.resolveInput hc.wf hv hcarries hp⟩
  · obtain ⟨type, w, hfirst, hnode⟩ :=
      hc.keepsFirst_of_constant hmeets hp hcarries.leads hop hvalue
    exact ⟨j, output, producer, w, _, hcarries, hp, hnode, .constant hop,
      hfirst.resolveInput hc.wf hv hcarries hp⟩

theorem argumentReshape_reads_parameter :
    ∃ c run v value, prepare argumentReshape = .ok c ∧
      c.Meets [⟨.float, [2, 3], none⟩, ⟨.int64, [1], some ⟨[1], .i64 #[6], rfl⟩⟩] 2 run ∧
      argumentReshape.node? 2 = some v ∧
      (⟨v, argumentReshape, [none, some value]⟩ : Context).staticInput 1 = .ok value ∧
      ∃ j output producer w u, argumentReshape.Carries j output 2 1 ∧
        argumentReshape.node? j = some producer ∧ run.target.nodes[w]? = some u ∧
        Holds [⟨.float, [2, 3], none⟩, ⟨.int64, [1], some value⟩] producer value u.op ∧
        resolveInput argumentReshape run.outputs v 1 =
          if output = 0 then .ok w
          else .error (.inputNotFound v.name 1 (.noOutput producer.name output)) := by
  have hprepare : prepare argumentReshape =
      .ok ⟨argumentReshape, ⟨[1, 0], [3], [2]⟩, [false, true]⟩ := by rfl
  have hmeets : (⟨argumentReshape, ⟨[1, 0], [3], [2]⟩, [false, true]⟩ : Compiled).Meets
      [⟨.float, [2, 3], none⟩, ⟨.int64, [1], some ⟨[1], .i64 #[6], rfl⟩⟩] 2
      ⟨⟨#[⟨0, .parameter 1, [], ⟨.i64, [1]⟩⟩, ⟨1, .parameter 0, [], ⟨.f32, [2, 3]⟩⟩]⟩,
        (NameTable.empty.insert "dims" [some 0]).insert "x" [some 1]⟩ :=
    ⟨[], [], _, _, rfl, rfl, rfl⟩
  exact ⟨_, _, _, ⟨[1], .i64 #[6], rfl⟩, hprepare, hmeets, rfl, rfl,
    static_read_resolves_first_output ⟨_, rfl⟩ hprepare hmeets rfl rfl⟩

/-- A reshape whose target shape is taken from the second output of a constant. -/
def secondOutputReshape : Source.Graph := Graph.build [
  .node { name := "x", op := "_Arg",
          attrs := (NameTable.empty.insert "T" (.type .float)).insert "index" (.int 0) },
  .node { name := "dims", op := "Const", outputs := 2,
          attrs := NameTable.empty.insert "value" (.tensor ⟨[1], .i64 #[6], rfl⟩) },
  .node { name := "y", op := "Reshape" },
  .node { name := "out", op := "_Retval", attrs := NameTable.empty.insert "index" (.int 0) },
  .edge 0 0 2 0, .edge 1 1 2 1, .edge 2 0 3 0]

/-- The run succeeds with a value that no wire carries. -/
theorem secondOutputReshape_reads_unemitted :
    ∃ c run v f, prepare secondOutputReshape = .ok c ∧ c.Meets [⟨.float, [2, 3], none⟩] 2 run ∧
      secondOutputReshape.node? 2 = some v ∧
      (⟨v, secondOutputReshape, c.statics [⟨.float, [2, 3], none⟩]⟩ : Context).staticInput 1 =
        .ok ⟨[1], .i64 #[6], rfl⟩ ∧
      resolveInput secondOutputReshape run.outputs v 1 =
        .error (.inputNotFound "y" 1 (.noOutput "dims" 1)) ∧
      c.lower [⟨.float, [2, 3], none⟩] = .ok f := by
  have hprepare : prepare secondOutputReshape =
      .ok ⟨secondOutputReshape, ⟨[0], [3], [1, 2]⟩, [false]⟩ := by rfl
  have hmeets : (⟨secondOutputReshape, ⟨[0], [3], [1, 2]⟩, [false]⟩ : Compiled).Meets
      [⟨.float, [2, 3], none⟩] 2
      ⟨⟨#[⟨0, .parameter 0, [], ⟨.f32, [2, 3]⟩⟩,
          ⟨1, .constant ⟨[1], .i64 #[6], rfl⟩, [], ⟨.i64, [1]⟩⟩]⟩,
        (NameTable.empty.insert "x" [some 0]).insert "dims" [some 1, none]⟩ :=
    ⟨[1], [], _, _, rfl, rfl, rfl⟩
  exact ⟨_, _, _, _, hprepare, hmeets, rfl, rfl, rfl, rfl⟩

end GraphLowering
