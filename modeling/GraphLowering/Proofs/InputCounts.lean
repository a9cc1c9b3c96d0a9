import Mathlib
import GraphLowering.Proofs.Run

/-!
# The inputs that rules account for

The dispatcher resolves the input slots that the kind of an op lists, and the rule of the kind
counts the inputs and reads the values it needs. Neither looks at the edges one by one. Together
they still leave no data edge out, as long as the rule counts: every listed slot is fed, the listed
slots are those below the number of inputs, and so there is no edge left for any other slot. The
rules for constants and for nodes without effect do not count.

* `Source.Graph.fedSlots` — the slots of a node that data edges lead to.
* `Source.Graph.fedSlots_perm` — if the slots below the number of data edges are fed, no others are.
* `OpKind.Takes`, `OpKind.Lists` — the numbers of inputs and the input slots of a kind.
* `OpKind.takes_of_rule`, `OpKind.read_of_rule` — a rule that succeeds has counted the inputs, and
  has read the values on its static slots.
* `Accounted` — what is said of the data edges into an op.
* `lowered_inputs_accounted` — in a run that succeeds the inputs of every op are accounted for,
  unless it is a constant or a node without effect that data flows into.
-/

namespace GraphLowering

open Source Target

/-! ### The data edges into a node -/

namespace Source

/-- The slot of node `i` that the edge brings data to. -/
def Edge.slotInto? (e : Edge) (i : Nat) : Option Nat :=
  match e.kind with
  | .data _ input => if e.dst = i then some input else none
  | .control => none

namespace Graph

variable {g : Graph} {i : Nat}

/-- The slots of node `i` that data edges lead to, one entry for each edge. -/
def fedSlots (g : Graph) (i : Nat) : List Nat := g.edges.toList.filterMap (·.slotInto? i)

theorem mem_fedSlots {slot : Nat} :
    slot ∈ g.fedSlots i ↔ ∃ j output, g.Carries j output i slot := by
  rw [fedSlots, List.mem_filterMap]
  constructor
  · rintro ⟨⟨src, dst, kind⟩, he, hslot⟩
    cases kind with
    | control => simp [Edge.slotInto?] at hslot
    | data output input =>
      obtain ⟨rfl, rfl⟩ : dst = i ∧ input = slot := by simpa [Edge.slotInto?] using hslot
      exact ⟨src, output, Array.mem_toList_iff.mp he⟩
  · rintro ⟨j, output, h⟩
    exact ⟨_, Array.mem_toList_iff.mpr h, by simp [Edge.slotInto?]⟩

theorem length_fedSlots (wf : g.WellFormed) {v : Node} (hv : g.node? i = some v) :
    (g.fedSlots i).length = v.inputs := by
  rw [fedSlots, List.length_filterMap_eq_countP, wf.inputs i v hv]
  refine List.countP_congr fun e _ => ?_
  obtain ⟨src, dst, kind⟩ := e
  cases kind with
  | control => simp [Edge.slotInto?, Edge.isData]
  | data output input => by_cases hdst : dst = i <;> simp [Edge.slotInto?, Edge.isData, hdst]

/-- There are as many data edges as slots below their number, so if those are fed, each is fed once
and no other slot is. -/
theorem fedSlots_perm (h : ∀ slot < (g.fedSlots i).length, slot ∈ g.fedSlots i) :
    (g.fedSlots i).Perm (List.range (g.fedSlots i).length) := by
  have hsub : List.range (g.fedSlots i).length ⊆ g.fedSlots i := by
    intro slot hslot
    exact h slot (List.mem_range.mp hslot)
  have hsubperm := List.nodup_range.subperm hsub
  exact (hsubperm.perm_of_length_le (by rw [List.length_range])).symm

end Graph

end Source

/-! ### What the kinds declare -/

namespace OpKind

/-- The numbers of inputs that an op of the kind has. -/
def Takes (kind : OpKind) (count : Nat) : Prop :=
  match kind with
  | nothing | constant => count = 0
  | addAll => 1 ≤ count
  | concat => 2 ≤ count
  | arithmetic _ | floorDivide | floorModulo | reshape | transpose | reduce _ | split | matMul
  | biasAdd | convolve => count = 2
  | apply _ | reluSix | square | cast | identity | squeeze | pool _ | softmax => count = 1

/-- The slots of a node that the kind lists, for an operand or for a value. -/
def Lists (kind : OpKind) (v : Source.Node) (slot : Nat) : Prop :=
  slot ∈ kind.operandSlots.of v ∨ kind.staticSlots.contains v slot = true

/-- The kind of a node with the right number of inputs lists the slots below that number. -/
theorem lists_iff {kind : OpKind} {v : Source.Node} (h : kind.Takes v.inputs) (slot : Nat) :
    kind.Lists v slot ↔ slot < v.inputs := by
  cases kind <;>
    simp only [Takes, Lists, operandSlots, staticSlots, OperandSlots.of, StaticSlots.contains,
      List.contains_iff_mem, List.mem_cons, List.mem_range, List.not_mem_nil, decide_eq_true_eq,
      Bool.false_eq_true, or_false, false_iff] at h ⊢ <;>
    omega

end OpKind

/-! ### What the rules check -/

section Rules

variable {ctx : Context} {ws : List Wire} {g h : Target.Graph} {outputs : Outputs}

/-- A rule that begins with a count goes on only if the count is right. -/
theorem inputs_of_needInputs {count : Nat} {next : Unit → Emit Outputs}
    (hrule : ((liftM (ctx.needInputs count) : Emit Unit) >>= next) g = .ok outputs h) :
    ctx.node.inputs = count ∧ next () g = .ok outputs h := by
  obtain ⟨_, hneed, hnext⟩ := Step.lift_bind_eq_ok.mp hrule
  unfold Context.needInputs at hneed
  split at hneed
  case isTrue hcount => exact ⟨hcount, hnext⟩
  case isFalse => cases hneed

theorem inputs_of_needInputsAtLeast {least : Nat} {next : Unit → Emit Outputs}
    (hrule : ((liftM (ctx.needInputsAtLeast least) : Emit Unit) >>= next) g = .ok outputs h) :
    least ≤ ctx.node.inputs ∧ next () g = .ok outputs h := by
  obtain ⟨_, hneed, hnext⟩ := Step.lift_bind_eq_ok.mp hrule
  unfold Context.needInputsAtLeast at hneed
  split at hneed
  case isTrue hcount => exact ⟨hcount, hnext⟩
  case isFalse => cases hneed

/-- A rule that succeeds has counted the inputs, or is one of the two that do not. -/
theorem OpKind.takes_of_rule {kind : OpKind} (hrule : kind.rule ctx ws g = .ok outputs h)
    (hcount : kind = .nothing ∨ kind = .constant → ctx.node.inputs = 0) :
    kind.Takes ctx.node.inputs := by
  cases kind with
  | nothing => exact hcount (.inl rfl)
  | constant => exact hcount (.inr rfl)
  | addAll => exact (inputs_of_needInputsAtLeast hrule).1
  | concat => exact (inputs_of_needInputsAtLeast hrule).1
  | _ => exact (inputs_of_needInputs hrule).1

theorem Context.staticInput_of_staticInts {slot : Nat} {values : List Int}
    (hints : ctx.staticInts slot = .ok values) : ∃ value, ctx.staticInput slot = .ok value := by
  obtain ⟨value, hvalue, -⟩ := except_bind_eq_ok.mp hints
  exact ⟨value, hvalue⟩

theorem staticInput_of_axisValue {slot : Nat} {axis : Int}
    (haxis : axisValue ctx slot = .ok axis) : ∃ value, ctx.staticInput slot = .ok value := by
  obtain ⟨values, hvalues, -⟩ := except_bind_eq_ok.mp haxis
  exact Context.staticInput_of_staticInts hvalues

/-- A rule that succeeds has read the value on every slot that its kind declares static. -/
theorem OpKind.read_of_rule {kind : OpKind} (hrule : kind.rule ctx ws g = .ok outputs h)
    (hlength : ws.length = (kind.operandSlots.of ctx.node).length) {slot : Nat}
    (hslot : kind.staticSlots.contains ctx.node slot = true) :
    ∃ value, ctx.staticInput slot = .ok value := by
  cases kind with
  | reshape | transpose =>
    obtain rfl : slot = 1 := by simpa [staticSlots, StaticSlots.contains] using hslot
    obtain ⟨-, hrule⟩ := inputs_of_needInputs hrule
    obtain ⟨values, hvalues, -⟩ := Step.lift_bind_eq_ok.mp hrule
    exact Context.staticInput_of_staticInts hvalues
  | reduce mean =>
    obtain rfl : slot = 1 := by simpa [staticSlots, StaticSlots.contains] using hslot
    obtain ⟨-, hrule⟩ := inputs_of_needInputs hrule
    obtain ⟨x, -, hrule⟩ := Step.lift_bind_eq_ok.mp hrule
    obtain ⟨shape, _, -, hrule⟩ := Step.bind_eq_ok.mp hrule
    obtain ⟨axes, haxes, -⟩ := Step.lift_bind_eq_ok.mp hrule
    obtain ⟨values, hvalues, -⟩ := except_bind_eq_ok.mp haxes
    exact Context.staticInput_of_staticInts hvalues
  -- the rule takes the slot from its operands, of which there is one for each input
  | concat =>
    obtain ⟨-, hrule⟩ := inputs_of_needInputsAtLeast hrule
    have hlast : slot + 1 = ctx.node.inputs := by
      simpa [staticSlots, StaticSlots.contains] using hslot
    have hoperands : ws.length = ctx.node.inputs := by
      simpa [operandSlots, OperandSlots.of] using hlength
    have hminus : minus ws.length 1 = .ok slot := by
      rw [minus_eq_ok (by omega)]
      congr 1
      omega
    obtain ⟨last, hrun, hrule⟩ := Step.lift_bind_eq_ok.mp hrule
    obtain rfl := Except.ok.inj (hminus.symm.trans hrun)
    obtain ⟨axis, haxis, -⟩ := Step.lift_bind_eq_ok.mp hrule
    exact staticInput_of_axisValue haxis
  | split =>
    obtain rfl : slot = 0 := by simpa [staticSlots, StaticSlots.contains] using hslot
    obtain ⟨-, hrule⟩ := inputs_of_needInputs hrule
    obtain ⟨pieces, -, hrule⟩ := Step.lift_bind_eq_ok.mp hrule
    split at hrule
    · rw [Step.bind_of_error (Step.throw_apply _ g)] at hrule
      cases hrule
    · obtain ⟨x, -, hrule⟩ := Step.lift_bind_eq_ok.mp hrule
      obtain ⟨shape, _, -, hrule⟩ := Step.bind_eq_ok.mp hrule
      obtain ⟨axis, haxis, -⟩ := Step.lift_bind_eq_ok.mp hrule
      exact staticInput_of_axisValue haxis
  | _ => simp [staticSlots, StaticSlots.contains] at hslot

end Rules

/-! ### Ops that have been lowered -/

/-- The data edges into the op at place `i` are the ones that its kind declares: they lead to slots
that the kind lists, the kind takes so many of them, and they fill the slots from the first one on.
-/
structure Accounted (g : Source.Graph) (i : Nat) (v : Source.Node) (kind : OpKind) : Prop where
  lists : ∀ slot ∈ g.fedSlots i, kind.Lists v slot
  takes : kind.Takes (g.fedSlots i).length
  contiguous : (g.fedSlots i).Perm (List.range (g.fedSlots i).length)

section Lowered

variable {g : Source.Graph} (wf : g.WellFormed) {i : Nat} {v : Source.Node}
  (hv : g.node? i = some v)
include wf hv

/-- A slot that is read as a wire or as a value is fed. -/
theorem mem_fedSlots_of_resolveInput {outputs : OutputMap} {slot : Nat} {w : Wire}
    (hw : resolveInput g outputs v slot = .ok w) : slot ∈ g.fedSlots i := by
  obtain ⟨j, output, _, _, hcarries, -⟩ := (resolveInput_eq_ok wf hv).mp hw
  exact Graph.mem_fedSlots.mpr ⟨j, output, hcarries⟩

theorem mem_fedSlots_of_staticInput {statics : List (Option Tensor)} {slot : Nat} {value : Tensor}
    (hread : (⟨v, g, statics⟩ : Context).staticInput slot = .ok value) : slot ∈ g.fedSlots i := by
  obtain ⟨j, output, _, hcarries, -⟩ := Context.staticInput_eq_ok ⟨v, g, statics⟩ wf hv hread
  exact Graph.mem_fedSlots.mpr ⟨j, output, hcarries⟩

theorem Lowered.accounted {statics : List (Option Tensor)} {run : Run} {kind : OpKind}
    (hlowered : Lowered g statics run i) (hkind : OpKind.ofName? v.op = some kind)
    (hcount : kind = .nothing ∨ kind = .constant → v.inputs = 0) : Accounted g i v kind := by
  obtain ⟨u, kind', ws, outputs, before, after, hu, hkind', hws, -, -, hrule, -⟩ := hlowered
  obtain rfl : u = v := Option.some.inj (hu.symm.trans hv)
  obtain rfl : kind' = kind := Option.some.inj (hkind'.symm.trans hkind)
  have hresolved := except_mapM_eq_ok.mp hws
  have hfed : ∀ slot, kind'.Lists u slot → slot ∈ g.fedSlots i := by
    rintro slot (hoperand | hstatic)
    · obtain ⟨w, -, hw⟩ := forall₂_exists_right hresolved hoperand
      exact mem_fedSlots_of_resolveInput wf hv hw
    · obtain ⟨value, hread⟩ := OpKind.read_of_rule hrule hresolved.length_eq.symm hstatic
      exact mem_fedSlots_of_staticInput wf hv hread
  have htakes : kind'.Takes u.inputs := OpKind.takes_of_rule hrule hcount
  have hlength := Graph.length_fedSlots wf hv
  -- the listed slots are those below the number of edges, so they are all there are
  have hperm : (g.fedSlots i).Perm (List.range (g.fedSlots i).length) := by
    refine Graph.fedSlots_perm fun slot hslot => hfed slot ?_
    rw [hlength] at hslot
    exact (OpKind.lists_iff htakes slot).mpr hslot
  refine ⟨fun slot hslot => ?_, by rwa [hlength], hperm⟩
  have hlt := List.mem_range.mp (hperm.mem_iff.mp hslot)
  rw [hlength] at hlt
  exact (OpKind.lists_iff htakes slot).mpr hlt

end Lowered

/-- The op types whose rules do not count the inputs. -/
theorem OpKind.uncounted_iff {name : String} {kind : OpKind} (h : ofName? name = some kind) :
    (kind = .nothing ∨ kind = .constant) ↔ (name = "Const" ∨ name = "NoOp") := by
  constructor
  · have hname := mem_names_of_ofName? h
    rintro (rfl | rfl)
    · exact .inr (List.mem_singleton.mp hname)
    · exact .inl (List.mem_singleton.mp hname)
  · rintro (rfl | rfl)
    · exact .inr (Option.some.inj h).symm
    · exact .inl (Option.some.inj h).symm

/-- **In a run that succeeds the inputs of every op are accounted for**, with one exception: data
that flows into a constant or into a node without effect is passed over. -/
theorem lowered_inputs_accounted {g : Source.Graph} {c : Compiled} {args : List Argument}
    {f : Function} (hbuilt : g.Built) (hprepare : prepare g = .ok c)
    (hlower : c.lower args = .ok f) {i : Nat} {v : Source.Node} (hv : g.node? i = some v)
    (hordinary : v.isOrdinary = true) :
    ∃ kind, OpKind.ofName? v.op = some kind ∧
      (Accounted g i v kind ↔ (v.op = "Const" ∨ v.op = "NoOp" → g.fedSlots i = [])) := by
  have hc := prepared_of_prepare hbuilt.wellFormed hprepare
  obtain ⟨rfl, -⟩ := prepare_eq_ok hprepare
  obtain ⟨start, run, parameters, results, -, -, hrun, -⟩ := hc.lower_spec hlower
  have hi : i ∈ c.parts.ops := hc.mem_ops.mpr (Graph.is_iff.mpr ⟨v, hv, hordinary⟩)
  obtain ⟨u, kind, _, _, _, _, hu, hkind, -⟩ := hrun.lowered i hi
  obtain rfl : u = v := Option.some.inj (hu.symm.trans hv)
  refine ⟨kind, hkind, ?_, ?_⟩
  · intro haccounted hop
    have hempty : (c.graph.fedSlots i).length = 0 := by
      have htakes := haccounted.takes
      obtain rfl | rfl := (OpKind.uncounted_iff hkind).mpr hop
      · exact htakes
      · exact htakes
    exact List.eq_nil_of_length_eq_zero hempty
  · intro hnone
    refine (hrun.lowered i hi).accounted hc.wf hv hkind fun huncounted => ?_
    rw [← Graph.length_fedSlots hc.wf hv, hnone ((OpKind.uncounted_iff hkind).mp huncounted)]
    rfl

/-- A concatenation whose edges have been added in the order opposite to their slots. -/
def backwardConcat : Source.Graph := Graph.build [
  .node { name := "a", op := "_Arg",
          attrs := (NameTable.empty.insert "T" (.type .float)).insert "index" (.int 0) },
  .node { name := "b", op := "_Arg",
          attrs := (NameTable.empty.insert "T" (.type .float)).insert "index" (.int 1) },
  .node { name := "axis", op := "Const",
          attrs := NameTable.empty.insert "value" (.tensor ⟨[], .i64 #[0], rfl⟩) },
  .node { name := "c", op := "ConcatV2" },
  .node { name := "out", op := "_Retval", attrs := NameTable.empty.insert "index" (.int 0) },
  .edge 2 0 3 2, .edge 1 0 3 1, .edge 0 0 3 0, .edge 3 0 4 0]

theorem backwardConcat_accounted :
    ∃ c f v, prepare backwardConcat = .ok c ∧
      c.lower [⟨.float, [2], none⟩, ⟨.float, [3], none⟩] = .ok f ∧
      backwardConcat.node? 3 = some v ∧ backwardConcat.fedSlots 3 = [2, 1, 0] ∧
      Accounted backwardConcat 3 v .concat := by
  have hprepare : prepare backwardConcat =
      .ok ⟨backwardConcat, ⟨[1, 0], [4], [2, 3]⟩, [false, false]⟩ := by rfl
  have hlower : (⟨backwardConcat, ⟨[1, 0], [4], [2, 3]⟩, [false, false]⟩ : Compiled).lower
      [⟨.float, [2], none⟩, ⟨.float, [3], none⟩] =
      .ok ⟨⟨#[⟨0, .parameter 1, [], ⟨.f32, [3]⟩⟩, ⟨1, .parameter 0, [], ⟨.f32, [2]⟩⟩,
        ⟨2, .constant ⟨[], .i64 #[0], rfl⟩, [], ⟨.i64, []⟩⟩,
        ⟨3, .concat 0, [1, 0], ⟨.f32, [5]⟩⟩]⟩, [1, 0], [3]⟩ := by rfl
  obtain ⟨v, hv⟩ : ∃ v, backwardConcat.node? 3 = some v := ⟨_, rfl⟩
  have hop : v.op = "ConcatV2" := by
    obtain rfl := Option.some.inj hv
    rfl
  have hordinary : v.isOrdinary = true := by
    obtain rfl := Option.some.inj hv
    rfl
  obtain ⟨kind, hkind, haccounted⟩ :=
    lowered_inputs_accounted ⟨_, rfl⟩ hprepare hlower hv hordinary
  obtain rfl : OpKind.concat = kind := by
    rw [hop] at hkind
    exact Option.some.inj hkind
  exact ⟨_, _, v, hprepare, hlower, hv, rfl, haccounted.mpr (by rw [hop]; decide)⟩

/-- Data flows into a constant and into a node without effect. -/
def fedConstant : Source.Graph := Graph.build [
  .node { name := "x", op := "_Arg",
          attrs := (NameTable.empty.insert "T" (.type .float)).insert "index" (.int 0) },
  .node { name := "k", op := "Const",
          attrs := NameTable.empty.insert "value" (.tensor ⟨[], .i64 #[0], rfl⟩) },
  .node { name := "n", op := "NoOp", outputs := 0 },
  .node { name := "out", op := "_Retval", attrs := NameTable.empty.insert "index" (.int 0) },
  .edge 0 0 1 0, .edge 0 0 2 0, .edge 1 0 3 0]

/-- The run succeeds, and neither edge is among those that the kinds list. -/
theorem fedConstant_inputs_ignored :
    ∃ c f v u, prepare fedConstant = .ok c ∧ c.lower [⟨.float, [2, 3], none⟩] = .ok f ∧
      fedConstant.node? 1 = some v ∧ v.op = "Const" ∧ fedConstant.fedSlots 1 = [0] ∧
      ¬ OpKind.constant.Lists v 0 ∧
      fedConstant.node? 2 = some u ∧ u.op = "NoOp" ∧ fedConstant.fedSlots 2 = [0] ∧
      ¬ OpKind.nothing.Lists u 0 := by
  have hprepare : prepare fedConstant =
      .ok ⟨fedConstant, ⟨[0], [3], [2, 1]⟩, [false]⟩ := by rfl
  have hlists : ∀ v : Source.Node, ¬ OpKind.constant.Lists v 0 ∧ ¬ OpKind.nothing.Lists v 0 := by
    intro v
    simp [OpKind.Lists, OpKind.operandSlots, OpKind.staticSlots, OperandSlots.of,
      StaticSlots.contains]
  exact ⟨_, _, _, _, hprepare, rfl, rfl, rfl, rfl, (hlists _).1, rfl, rfl, rfl, (hlists _).2⟩

end GraphLowering
