import Mathlib
import GraphLowering.Proofs.PairedOperands

/-!
# A bias along the last axis

A bias is a vector that is added along the channels of a tensor. Where the channels come last, the
vector is aligned with the last axis of the tensor, as the operands of a sum are. The common shape is
then that of the tensor: the tensor stays as it is, and the vector is repeated along all axes but the
last. So adding a bias and adding the vector append the same nodes, and fail in the same way.

* `broadcastTo_front` — a tensor that lacks only the first axes is stretched by one broadcast.
* `Context.ChannelsLast` — the nodes whose channels come last.
* `repeatedBias`, `addRepeated` — the arena with the repeated vector, and the step that is left.
* `biasAdd_run`, `sum_run` — a bias and a sum both come to that step.
* `channelsLast_bias_is_sum` — a bias is a sum, and what both append.
-/

namespace GraphLowering

open Target

/-! ### Stretching along new axes -/

theorem stretchedAxes_self (start : Nat) (shape : List Nat) :
    stretchedAxes start shape shape = [] := by
  induction shape generalizing start with
  | nil => rfl
  | cons size shape ih => rw [stretchedAxes_cons, if_pos rfl, ih]

theorem zip_self_agrees (shape : List Nat) :
    (shape.zip shape).any (fun p => p.1 ≠ p.2 && p.1 ≠ 1) = false := by
  induction shape with
  | nil => rfl
  | cons size shape ih => rw [List.zip_cons_cons, List.any_cons, ih]; simp

/-- A tensor that has all the last axes of a shape is repeated along the first ones. -/
theorem broadcastTo_front (ctx : Context) {g : Graph} {x : Wire} {type : TensorType}
    {front : List Nat} (hfront : front ≠ []) (hx : g.type? x = some type) :
    broadcastTo ctx x (front ++ type.shape) g =
      emit (.broadcast (front ++ type.shape) (List.range front.length)) [x] g := by
  have hpos : 0 < front.length := List.length_pos_of_ne_nil hfront
  have hlength : (front ++ type.shape).length = front.length + type.shape.length :=
    List.length_append
  have hne : type.shape ≠ front ++ type.shape := by
    intro heq
    have := congrArg List.length heq
    omega
  have hminus : (liftM (minus (front ++ type.shape).length type.shape.length) : Emit Nat) g =
      .ok front.length g := by
    rw [minus_eq_ok (by omega), hlength, Nat.add_sub_cancel]
    rfl
  have hkept : ((type.shape.zip type.shape).filter fun p => p.1 = p.2).map Prod.fst =
      type.shape := by
    rw [kept_eq, keptEntries_self rfl]
  have hstretched : (((type.shape.zip type.shape).zipIdx front.length).filterMap
      fun p => if p.1.1 = p.1.2 then none else some p.2) = [] :=
    stretchedAxes_self front.length type.shape
  rw [broadcastTo, Step.bind_of_ok (shapeOf_of_type? hx)]
  dsimp only
  rw [if_neg hne, if_neg (by omega), Step.bind_of_ok hminus, List.drop_left,
    if_neg (Bool.eq_false_iff.mp (zip_self_agrees _)), hkept, if_pos rfl, hstretched,
    List.append_nil]
  rfl

theorem infer_front (front : List Nat) (type : TensorType) :
    (Op.broadcast (front ++ type.shape) (List.range front.length)).infer [type] =
      .ok ⟨type.element, front ++ type.shape⟩ := by
  have hinfer := infer_stretched front (rfl : type.shape.length = type.shape.length) type.element
  rw [broadcastAxes, stretchedAxes_self, List.append_nil, keptEntries_self rfl] at hinfer
  exact hinfer

/-! ### The two rules -/

/-- The channels of the node's data come last: its format says so, or there is none. -/
def Context.ChannelsLast (ctx : Context) : Prop :=
  ctx.node.attr? "data_format" = none ∨ ctx.node.attr? "data_format" = some (.text "NHWC")

theorem Context.ChannelsLast.dataFormat {ctx : Context} (h : ctx.ChannelsLast) :
    DataFormat.of ctx = .ok .channelsLast := by
  have htext : ctx.node.textOr "data_format" "NHWC" = .ok "NHWC" := by
    rcases h with h | h
    · simp [Source.Node.textOr, Source.Node.attrOfKind?, h, Except.map]
    · simp [Source.Node.textOr, Source.Node.attrOfKind?, h, Attribute.text?, Except.map]
  rw [DataFormat.of, htext]
  rfl

theorem range_filter_ne_last (n : Nat) : (List.range (n + 1)).filter (· ≠ n) = List.range n := by
  have hbelow : ∀ i ∈ List.range n, decide (i ≠ n) = true := by
    intro i hi
    have := List.mem_range.mp hi
    exact decide_eq_true (by omega)
  rw [List.range_succ, List.filter_append, List.filter_eq_self.mpr hbelow]
  simp

/-- The arena in which a vector has been repeated along all axes of a shape but the last. -/
def repeatedBias (g : Graph) (bias : Wire) (element : ElementType) (shape : Shape) : Graph :=
  g.push (.broadcast shape (List.range (shape.length - 1))) [bias] ⟨element, shape⟩

/-- The step that adds the repeated vector and fills the first output slot. -/
def addRepeated (ctx : Context) (value last : Wire) : Emit Outputs := do
  ctx.output (← emit (.binary .add) [value, last])

section Rules

variable {ctx : Context} {g : Graph} {value bias : Wire} {s t : TensorType} {front : List Nat}
  {channels : Nat}

theorem length_append_channel (hs : s.shape = front ++ [channels]) :
    s.shape.length = front.length + 1 := by
  rw [hs, List.length_append]
  rfl

/-- The vector is repeated along the axes before the last. -/
theorem emit_repeated (hbias : g.type? bias = some t) (hs : s.shape = front ++ [channels])
    (ht : t.shape = [channels]) :
    emit (.broadcast s.shape (List.range front.length)) [bias] g =
      .ok g.size (repeatedBias g bias t.element s.shape) := by
  have hinfer := infer_front front t
  rw [ht, ← hs] at hinfer
  rw [emit_of_type hbias hinfer, repeatedBias, length_append_channel hs, Nat.add_sub_cancel]

theorem type?_repeatedBias (bias : Wire) (element : ElementType) (shape : Shape)
    (hvalue : g.type? value = some s) : (repeatedBias g bias element shape).type? value = some s :=
  Graph.type?_mono (g.le_push _ _ _) hvalue

/-- A vector with as many entries as there are channels passes all checks of a bias. -/
theorem biasAdd_run (hinputs : ctx.node.inputs = 2) (hformat : ctx.ChannelsLast)
    (hvalue : g.type? value = some s) (hbias : g.type? bias = some t)
    (hs : s.shape = front ++ [channels]) (ht : t.shape = [channels]) (hfront : front ≠ []) :
    Rule.biasAdd ctx [value, bias] g =
      addRepeated ctx value g.size (repeatedBias g bias t.element s.shape) := by
  have hlength := length_append_channel hs
  have hpos : 0 < front.length := List.length_pos_of_ne_nil hfront
  have hrank : needRank ctx "bias" bias 1 g = .ok () g :=
    (needRank_eq_ok hbias).mpr ⟨by rw [ht]; rfl, rfl⟩
  have hchannel : DataFormat.channelsLast.channelAxis s.shape.length = .ok front.length := by
    rw [DataFormat.channelAxis, minus_eq_ok (by omega), hlength, Nat.add_sub_cancel]
  have hentry : entryAt t.shape 0 = .ok channels := by rw [ht, entryAt_cons_zero]
  have hlast : entryAt s.shape front.length = .ok channels := by
    refine entryAt_eq_ok ?_
    rw [hs, List.getElem?_append_right le_rfl, Nat.sub_self]
    rfl
  rw [Rule.biasAdd, Context.needInputs_run hinputs, Step.lift_bind_of_ok hformat.dataFormat,
    Step.lift_bind_of_ok (entryAt_cons_zero _ _), Step.lift_bind_of_ok (entryAt_eq_ok rfl),
    Step.bind_of_ok (shapeOf_of_type? hvalue)]
  dsimp only
  rw [if_neg (by omega), Step.bind_of_ok hrank, Step.lift_bind_of_ok hchannel,
    Step.bind_of_ok (shapeOf_of_type? hbias), Step.lift_bind_of_ok hentry,
    Step.lift_bind_of_ok hlast, if_neg (not_not.mpr rfl), hlength, range_filter_ne_last,
    Step.bind_of_ok (emit_repeated hbias hs ht)]
  rfl

/-- The common shape of the operands of the sum is that of the tensor. -/
theorem sum_run (hinputs : ctx.node.inputs = 2) (hvalue : g.type? value = some s)
    (hbias : g.type? bias = some t) (hs : s.shape = front ++ [channels]) (ht : t.shape = [channels])
    (hfront : front ≠ []) :
    Rule.arithmetic .add ctx [value, bias] g =
      addRepeated ctx value g.size (repeatedBias g bias t.element s.shape) := by
  have hcommon : broadcastShapes s.shape t.shape = some s.shape := by
    rw [broadcastShapes_comm, broadcastShapes_eq_self_iff, hs, ht]
    exact ⟨front, [channels], rfl, List.forall₂_same.mpr fun _ _ => .inl rfl⟩
  have hrepeat : broadcastTo ctx bias s.shape g =
      .ok g.size (repeatedBias g bias t.element s.shape) := by
    have hfirst := broadcastTo_front ctx hfront hbias
    rw [ht, ← hs] at hfirst
    rw [hfirst, emit_repeated hbias hs ht]
  have hboth : broadcastBoth ctx value bias g =
      .ok (value, g.size) (repeatedBias g bias t.element s.shape) := by
    rw [broadcastBoth, Step.bind_of_ok (shapeOf_of_type? hvalue),
      Step.bind_of_ok (shapeOf_of_type? hbias), hcommon]
    dsimp only
    rw [Step.bind_of_ok (broadcastTo_self ctx hvalue), Step.bind_of_ok hrepeat]
    rfl
  have hrule := (PairOp.arithmetic .add).rule_eq hinputs value bias g
  rw [Step.bind_of_ok hboth] at hrule
  exact hrule

theorem addRepeated_of_same (hslots : 0 < ctx.node.outputs) (hvalue : g.type? value = some s)
    (hsame : s.element = t.element) :
    addRepeated ctx value g.size (repeatedBias g bias t.element s.shape) =
      .ok (some (g.size + 1) :: List.replicate (ctx.node.outputs - 1) none)
        ((repeatedBias g bias t.element s.shape).push (.binary .add) [value, g.size] s) := by
  have hrepeated : (repeatedBias g bias t.element s.shape).type? g.size = some s := by
    rw [← hsame]
    exact g.type?_push_self _ _ _
  have hinfer := infer_binary_same .add (type?_repeatedBias bias t.element s.shape hvalue) hrepeated
  have hsize : (repeatedBias g bias t.element s.shape).size = g.size + 1 := g.size_push _ _ _
  rw [addRepeated, Step.bind_of_ok (emit_of_infer hinfer), hsize]
  exact Context.output_run hslots _ _

theorem addRepeated_of_ne (hvalue : g.type? value = some s) (hne : s.element ≠ t.element) :
    addRepeated ctx value g.size (repeatedBias g bias t.element s.shape) =
      .error (.mismatch (.operandsDiffer "Add" s.element s.shape t.element s.shape))
        (repeatedBias g bias t.element s.shape) := by
  have hrepeated : (repeatedBias g bias t.element s.shape).type? g.size =
      some ⟨t.element, s.shape⟩ := g.type?_push_self _ _ _
  have htypes : s ≠ ⟨t.element, s.shape⟩ := by
    intro heq
    rw [heq] at hne
    exact hne rfl
  exact Step.bind_of_error (emit_binary_of_ne .add (type?_repeatedBias bias _ _ hvalue) hrepeated
    htypes)

end Rules

/-- **A bias along the last axis is a sum.** Let a tensor have two axes or more, and let a vector have
as many entries as the last of them. A node that adds the vector as a bias, with the channels last, and
a node that adds the two tensors, each with two inputs and the same positive number of output slots,
then end in the same way from the same arena. If the elements are of one type, the vector is repeated
and added, and the sum takes the first output slot; if they are not, the vector is repeated and the sum
is refused. -/
theorem channelsLast_bias_is_sum {ctx sum : Context} {g : Graph} {value bias : Wire}
    {s t : TensorType} {channels : Nat} (hinputs : ctx.node.inputs = 2)
    (hformat : ctx.ChannelsLast) (hslots : 0 < ctx.node.outputs) (hsumInputs : sum.node.inputs = 2)
    (hsumSlots : sum.node.outputs = ctx.node.outputs) (hvalue : g.type? value = some s)
    (hrank : 2 ≤ s.shape.length) (hlast : s.shape.getLast? = some channels)
    (hbias : g.type? bias = some t) (ht : t.shape = [channels]) :
    Rule.biasAdd ctx [value, bias] g = Rule.arithmetic .add sum [value, bias] g ∧
    (s.element = t.element → Rule.biasAdd ctx [value, bias] g =
      .ok (some (g.size + 1) :: List.replicate (ctx.node.outputs - 1) none)
        ((repeatedBias g bias t.element s.shape).push (.binary .add) [value, g.size] s)) ∧
    (s.element ≠ t.element → Rule.biasAdd ctx [value, bias] g =
      .error (.mismatch (.operandsDiffer "Add" s.element s.shape t.element s.shape))
        (repeatedBias g bias t.element s.shape)) := by
  obtain ⟨front, hs⟩ := List.getLast?_eq_some_iff.mp hlast
  have hfront : front ≠ [] := by
    rintro rfl
    rw [length_append_channel hs] at hrank
    exact absurd hrank (by decide)
  rw [biasAdd_run hinputs hformat hvalue hbias hs ht hfront,
    sum_run hsumInputs hvalue hbias hs ht hfront]
  by_cases hsame : s.element = t.element
  · rw [addRepeated_of_same hslots hvalue hsame,
      addRepeated_of_same (hsumSlots ▸ hslots) hvalue hsame, hsumSlots]
    exact ⟨rfl, fun _ => rfl, fun hne => absurd hsame hne⟩
  · rw [addRepeated_of_ne hvalue hsame, addRepeated_of_ne hvalue hsame]
    exact ⟨rfl, fun h => absurd h hsame, fun _ => rfl⟩

/-- The context of a bias along the last axis. -/
def biasContext : Context :=
  ⟨{ name := "shifted", op := "BiasAdd", index := 0, inputs := 2,
     attrs := NameTable.empty.insert "data_format" (.text "NHWC") }, {}, []⟩

/-- The context of a sum with two operands. -/
def plainSum : Context := ⟨{ name := "plain", op := "Add", index := 0, inputs := 2 }, {}, []⟩

/-- An arena with a tensor, a vector of its elements, and a vector of other elements. -/
def biasedTensor : Graph := .ofParameters [⟨.f32, [2, 3, 4]⟩, ⟨.f32, [4]⟩, ⟨.i32, [4]⟩]

/-- The first vector is added, the second is refused behind its broadcast. -/
theorem biases_as_sums :
    (∃ h, Rule.biasAdd biasContext [0, 1] biasedTensor = .ok [some 4] h ∧
      Rule.arithmetic .add plainSum [0, 1] biasedTensor = .ok [some 4] h ∧
      h.type? 4 = some ⟨.f32, [2, 3, 4]⟩) ∧
    ∃ h, Rule.biasAdd biasContext [0, 2] biasedTensor =
        .error (.mismatch (.operandsDiffer "Add" .f32 [2, 3, 4] .i32 [2, 3, 4])) h ∧
      Rule.arithmetic .add plainSum [0, 2] biasedTensor =
        .error (.mismatch (.operandsDiffer "Add" .f32 [2, 3, 4] .i32 [2, 3, 4])) h ∧
      h.type? 3 = some ⟨.i32, [2, 3, 4]⟩ := by
  have hformat : biasContext.ChannelsLast := .inr rfl
  have hsum : plainSum.node.inputs = 2 := rfl
  have hvalue : biasedTensor.type? 0 = some ⟨.f32, [2, 3, 4]⟩ := rfl
  have hfloat : biasedTensor.type? 1 = some ⟨.f32, [4]⟩ := rfl
  have hint : biasedTensor.type? 2 = some ⟨.i32, [4]⟩ := rfl
  constructor
  · obtain ⟨heq, hadded, -⟩ := channelsLast_bias_is_sum rfl hformat (by decide) hsum rfl hvalue
      (by decide) rfl hfloat rfl
    exact ⟨_, hadded rfl, heq.symm.trans (hadded rfl), rfl⟩
  · obtain ⟨heq, -, hrefused⟩ := channelsLast_bias_is_sum rfl hformat (by decide) hsum rfl hvalue
      (by decide) rfl hint rfl
    exact ⟨_, hrefused (by decide), heq.symm.trans (hrefused (by decide)), rfl⟩

end GraphLowering
