import Mathlib
import GraphLowering.Proofs.FittingRules
import GraphLowering.Proofs.PairedOperands

/-!
# How rules end

A lowering rule is asked with one wire of the arena for each slot that its kind lists. It reads what
it needs and appends ops, so it fills the output slots of its node or stops in one of the ways that an
input can cause: it refuses the node, or inference refuses an op. The one exception is the padding of a
window op under the policy `same`, which computes with signed words and faults if one of them cannot
hold its result.

* `transposed_ends`, `broadcastBoth_ends`, … — the steps that rules share.
* `arithmetic_ends`, `concat_ends`, `convolve_ends`, … — the rules that leave a check to inference.
* `OpKind.rule_ends` — how every rule ends.
-/

namespace GraphLowering

open Target

/-! ### Steps that rules share -/

section Steps

variable {fails : Graph → Error → Prop} (hrefusal : ∀ g e, e.Refusal → fails g e)
  (hmismatch : ∀ g cause, fails g (.mismatch cause)) {ctx : Context} {g : Graph} {x : Wire}

/-- The shape of a reshaped tensor is the one asked for. -/
theorem shape_of_infer_reshape {order : List Nat} {shape : Shape} {ws : List Wire}
    {type : TensorType} (h : g.infer (.reshape order shape) ws = .ok type) : type.shape = shape := by
  unfold Graph.infer at h
  split at h
  · cases h
  · obtain ⟨a, -, h⟩ := except_bind_eq_ok.mp h
    dsimp only at h
    split at h
    · cases h
    · split at h
      · cases h
      · cases h
        rfl

include hmismatch

theorem emit_has_bind {α : Type} {post : Graph → α → Prop} {op : Op} {ws : List Wire}
    {f : Wire → Emit α} (hf : ∀ {h} w, g ≤ h → h.Has w → Ends fails h post (f w h)) :
    Ends fails g post ((emit op ws >>= f) g) :=
  Ends.emit_bind (hmismatch _) fun w type hle hw _ => hf w hle ⟨type, hw⟩

theorem emit_has (op : Op) (ws : List Wire) : Ends fails g Graph.Has (emit op ws g) :=
  (Ends.emit (hmismatch _) op ws).mono fun _ _ ⟨type, hw, _⟩ => ⟨type, hw⟩

include hrefusal

theorem emit_output_ends (op : Op) (ws : List Wire) :
    Ends fails g (fun _ => FillsFirst ctx.node.outputs)
      ((emit op ws >>= fun w => (liftM (ctx.output w) : Emit Outputs)) g) :=
  emit_has_bind hmismatch fun w _ _ => output_ends hrefusal w

/-- Permuting keeps the number of axes. -/
theorem transposed_ends {type : TensorType} (hx : g.type? x = some type) (order : List Nat) :
    Ends fails g (fun h w => ∃ type, h.type? w = some type ∧ type.shape.length = order.length)
      (transposed ctx x order g) := by
  refine Ends.shapeOf_bind hx ?_
  cases htarget : order.mapM fun axis => type.shape[axis]? with
  | none => exact Ends.throw (hrefusal _ _ trivial)
  | some target =>
    refine (Ends.emit (hmismatch _) _ _).mono fun w _ ⟨type, hw, hinfer⟩ => ?_
    refine ⟨type, hw, ?_⟩
    rw [shape_of_infer_reshape hinfer]
    exact (option_mapM_eq_some.mp htarget).length_eq.symm

omit hmismatch in
theorem broadcastBoth_ends {a b : Wire} (ha : g.Has a) (hb : g.Has b) :
    Ends fails g (fun h p => h.Has p.1 ∧ h.Has p.2) (broadcastBoth ctx a b g) := by
  obtain ⟨s, hs⟩ := ha
  obtain ⟨t, ht⟩ := hb
  cases hshapes : broadcastShapes s.shape t.shape with
  | none =>
    rw [broadcastBoth_of_none ctx hs ht hshapes]
    exact .error le_rfl (hrefusal _ _ trivial)
  | some shape =>
    obtain ⟨c, g₁, d, h, -, -, hrun, hle, hc, hd⟩ := broadcastBoth_of_common ctx hs ht hshapes
    rw [hrun]
    exact .ok hle ⟨⟨_, hc⟩, ⟨_, hd⟩⟩

end Steps

/-! ### Elementwise rules -/

section Rules

variable {fails : Graph → Error → Prop} (hrefusal : ∀ g e, e.Refusal → fails g e)
  (hmismatch : ∀ g cause, fails g (.mismatch cause)) {ctx : Context} {g : Graph} {ws : List Wire}
  (hws : ∀ w ∈ ws, g.Has w)
include hrefusal hmismatch hws

omit hmismatch in
/-- Two operands are brought to one shape before anything is done with them. -/
theorem broadcastOperands_bind_ends {α : Type} {post : Graph → α → Prop} {f : Wire × Wire → Emit α}
    (hlength : ws.length = 2) (hf : ∀ {h} p, Ends fails h post (f p h)) :
    Ends fails g post ((do
      ctx.needInputs 2
      f (← broadcastBoth ctx (← entryAt ws 0) (← entryAt ws 1)) : Emit α) g) := by
  refine Ends.lift_bind (needInputs_yields (hrefusal g) 2) fun _ _ => ?_
  refine Ends.lift_bind (entryAt_wires_yields hws (by omega)) fun a ha => ?_
  refine Ends.lift_bind (entryAt_wires_yields hws (by omega)) fun b hb => ?_
  exact (broadcastBoth_ends hrefusal ha hb).bind fun p _ _ => hf p

theorem arithmetic_ends (f : BinaryOp) (hlength : ws.length = 2) :
    Ends fails g (fun _ => FillsFirst ctx.node.outputs) (Rule.arithmetic f ctx ws g) := by
  refine broadcastOperands_bind_ends hrefusal hws hlength fun (a, b) => ?_
  exact emit_output_ends hrefusal hmismatch _ _

theorem floorDivide_ends (hlength : ws.length = 2) :
    Ends fails g (fun _ => FillsFirst ctx.node.outputs) (Rule.floorDivide ctx ws g) := by
  refine broadcastOperands_bind_ends hrefusal hws hlength fun (a, b) => ?_
  refine emit_has_bind hmismatch fun quotient _ _ => ?_
  exact emit_output_ends hrefusal hmismatch _ _

theorem floorModulo_ends (hlength : ws.length = 2) :
    Ends fails g (fun _ => FillsFirst ctx.node.outputs) (Rule.floorModulo ctx ws g) := by
  refine broadcastOperands_bind_ends hrefusal hws hlength fun (a, b) => ?_
  refine emit_has_bind hmismatch fun quotient _ _ => ?_
  refine emit_has_bind hmismatch fun floored _ _ => ?_
  refine emit_has_bind hmismatch fun scaled _ _ => ?_
  exact emit_output_ends hrefusal hmismatch _ _

/-- The first operand is there because the node has an input, and every input is an operand. -/
theorem addAll_ends (hlength : ws.length = ctx.node.inputs) :
    Ends fails g (fun _ => FillsFirst ctx.node.outputs) (Rule.addAll ctx ws g) := by
  refine Ends.lift_bind (needInputsAtLeast_yields (hrefusal g) 1) fun _ hinputs => ?_
  refine Ends.lift_bind (entryAt_wires_yields hws (by omega)) fun first hfirst => ?_
  refine (Ends.foldlM_wires (fun a w _ => emit_has hmismatch _ _) hfirst).bind fun total _ _ => ?_
  exact output_ends hrefusal total

/-! ### Layout -/

section Static

variable (wf : ctx.graph.WellFormed) {i : Nat} (hv : ctx.graph.node? i = some ctx.node)
include wf hv

theorem transpose_ends (hlength : ws.length = 1) :
    Ends fails g (fun _ => FillsFirst ctx.node.outputs) (Rule.transpose ctx ws g) := by
  refine Ends.lift_bind (needInputs_yields (hrefusal g) 2) fun _ _ => ?_
  refine Ends.lift_bind (staticInts_yields (hrefusal g) wf hv 1) fun permutation _ => ?_
  refine Ends.lift_bind (entryAt_wires_yields hws (by omega)) fun x ⟨type, hx⟩ => ?_
  refine Ends.shapeOf_bind hx ?_
  dsimp only
  split
  · exact Ends.throw_bind (hrefusal _ _ trivial)
  · rw [Twin.mapM_lift]
    refine Ends.lift_bind (Yields.mapM fun p _ => axis_yields (hrefusal g) p _) fun order _ => ?_
    exact (transposed_ends hrefusal hmismatch hx order).bind fun w _ _ => output_ends hrefusal w

/-- A node with two inputs, all of them operands, has an operand before the last one. -/
theorem concat_ends (hlength : ws.length = ctx.node.inputs) :
    Ends fails g (fun _ => FillsFirst ctx.node.outputs) (Rule.concat ctx ws g) := by
  refine Ends.lift_bind (needInputsAtLeast_yields (hrefusal g) 2) fun _ hinputs => ?_
  refine Ends.lift_bind (minus_yields (by omega)) fun last _ => ?_
  refine Ends.lift_bind (axisValue_yields (hrefusal g) wf hv last) fun axis _ => ?_
  have hvalues : ∀ w ∈ ws.dropLast, g.Has w := fun w hw => hws w (List.mem_of_mem_dropLast hw)
  have hfirst : 0 < ws.dropLast.length := by
    rw [List.length_dropLast]
    omega
  refine Ends.lift_bind (entryAt_wires_yields hvalues hfirst) fun a ⟨type, ha⟩ => ?_
  refine Ends.shapeOf_bind ha ?_
  refine Ends.lift_bind (axis_yields (hrefusal g) axis _) fun place _ => ?_
  exact emit_output_ends hrefusal hmismatch _ _

end Static

/-! ### Dense layers -/

theorem matMul_ends (hlength : ws.length = 2) :
    Ends fails g (fun _ => FillsFirst ctx.node.outputs) (Rule.matMul ctx ws g) := by
  refine Ends.lift_bind (needInputs_yields (hrefusal g) 2) fun _ _ => ?_
  refine Ends.lift_bind (entryAt_wires_yields hws (by omega)) fun a ⟨s, ha⟩ => ?_
  refine Ends.lift_bind (entryAt_wires_yields hws (by omega)) fun b ⟨t, hb⟩ => ?_
  refine needRank_bind_ends hrefusal ha _ 2 fun _ => ?_
  refine needRank_bind_ends hrefusal hb _ 2 fun _ => ?_
  refine Ends.lift_bind (boolOr_yields (hrefusal g) _ _ _) fun first _ => ?_
  dsimp only
  have hturned : ∀ {h : Graph} {x : Wire} {type : TensorType}, h.type? x = some type →
      Ends fails h (fun _ _ => True) (transposed ctx x [1, 0] h) :=
    fun hx => (transposed_ends hrefusal hmismatch hx [1, 0]).mono fun _ _ _ => trivial
  refine Ends.ite_bind (fun _ => hturned ha) (fun _ => Ends.pure trivial) fun c hle _ => ?_
  refine Ends.lift_bind (boolOr_yields (hrefusal _) _ _ _) fun second _ => ?_
  refine Ends.ite_bind (fun _ => hturned (Graph.type?_mono hle hb)) (fun _ => Ends.pure trivial)
    fun d _ _ => ?_
  exact emit_output_ends hrefusal hmismatch _ _

/-- A bias of rank one has a size to be read, and a value of rank two has a channel axis. -/
theorem biasAdd_ends (hlength : ws.length = 2) :
    Ends fails g (fun _ => FillsFirst ctx.node.outputs) (Rule.biasAdd ctx ws g) := by
  refine Ends.lift_bind (needInputs_yields (hrefusal g) 2) fun _ _ => ?_
  refine Ends.lift_bind (dataFormat_yields (hrefusal g)) fun format _ => ?_
  refine Ends.lift_bind (entryAt_wires_yields hws (by omega)) fun value ⟨s, hvalue⟩ => ?_
  refine Ends.lift_bind (entryAt_wires_yields hws (by omega)) fun bias ⟨t, hbias⟩ => ?_
  refine Ends.shapeOf_bind hvalue ?_
  dsimp only
  split
  case isTrue => exact Ends.throw_bind (hrefusal _ _ trivial)
  case isFalse hrank =>
    refine needRank_bind_ends hrefusal hbias _ 1 fun hone => ?_
    refine Ends.lift_bind (channelAxis_yields format (by omega)) fun channel hchannel => ?_
    refine Ends.shapeOf_bind hbias ?_
    refine Ends.lift_bind (entryAt_yields (by omega)) fun channels _ => ?_
    refine Ends.lift_bind (entryAt_yields hchannel) fun wanted _ => ?_
    split
    · exact Ends.throw_bind (hrefusal _ _ trivial)
    · refine emit_has_bind hmismatch fun stretched _ _ => ?_
      exact emit_output_ends hrefusal hmismatch _ _

/-! ### Windows -/

omit hws in
theorem toChannelsFirst_ends {x : Wire} {type : TensorType} (hx : g.type? x = some type)
    (hrank : type.shape.length = 4) (format : DataFormat) :
    Ends fails g (fun h w => ∃ type, h.type? w = some type ∧ type.shape.length = 4)
      (toChannelsFirst ctx x format g) := by
  cases format with
  | channelsLast => exact transposed_ends hrefusal hmismatch hx [0, 3, 1, 2]
  | channelsFirst => exact Ends.pure ⟨type, hx, hrank⟩

omit hws in
theorem ofChannelsFirst_ends {x : Wire} (hx : g.Has x) (format : DataFormat) :
    Ends fails g (fun _ _ => True) (ofChannelsFirst ctx x format g) := by
  obtain ⟨type, hx⟩ := hx
  cases format with
  | channelsLast => exact (transposed_ends hrefusal hmismatch hx _).mono fun _ _ _ => trivial
  | channelsFirst => exact Ends.pure trivial

omit hrefusal hmismatch hws in
theorem spatialSizes_bind_ends {α : Type} {post : Graph → α → Prop} {f : List Nat → Emit α}
    {x : Wire} {type : TensorType} (hx : g.type? x = some type) (hrank : type.shape.length = 4)
    (hf : ∀ sizes, (∀ size ∈ sizes, g.HasSize size) → Ends fails g post (f sizes g)) :
    Ends fails g post ((spatialSizes x >>= f) g) := by
  unfold spatialSizes
  rw [bind_assoc]
  refine Ends.shapeOf_bind hx ?_
  refine Ends.lift_bind (entriesFrom_yields (by omega)) fun sizes hsizes => ?_
  subst hsizes
  exact hf _ fun size hsize => ⟨x, type, hx, List.mem_of_mem_drop hsize⟩

variable (hoverflow : ∀ h, ctx.Overflows h → fails h (.internal .overflow))
include hoverflow

/-- Data and filters have four axes, of which the last two are the spatial ones. -/
theorem convolve_ends (hlength : ws.length = 2) :
    Ends fails g (fun _ => FillsFirst ctx.node.outputs) (Rule.convolve ctx ws g) := by
  refine Ends.lift_bind (needInputs_yields (hrefusal g) 2) fun _ _ => ?_
  refine Ends.lift_bind (dataFormat_yields (hrefusal g)) fun format _ => ?_
  refine Ends.lift_bind (entryAt_wires_yields hws (by omega)) fun data ⟨s, hdata⟩ => ?_
  refine Ends.lift_bind (entryAt_wires_yields hws (by omega)) fun filters ⟨t, hfilters⟩ => ?_
  refine needRank_bind_ends hrefusal hdata _ 4 fun hdataRank => ?_
  refine needRank_bind_ends hrefusal hfilters _ 4 fun _ => ?_
  refine Ends.lift_bind (spatialEntries_yields (hrefusal g) "strides" format)
    fun strides hstrides => ?_
  dsimp only
  have hread : Ends fails g
      (fun _ dilations => ∀ n ∈ dilations, n = 1 ∨ ctx.HasEntry "dilations" n)
      ((liftM (spatialEntries ctx "dilations" format) : Emit (List Nat)) g) :=
    Ends.lift (spatialEntries_yields (hrefusal g) "dilations" format)
      fun dilations h n hn => .inr (h n hn)
  have hones : ∀ n ∈ [1, 1], n = 1 ∨ ctx.HasEntry "dilations" n := by
    intro n hn
    exact .inl (by simpa using hn)
  refine Ends.ite_bind (fun _ => hread) (fun _ => Ends.pure hones)
    fun dilations hle hdilations => ?_
  have hfilters := Graph.type?_mono hle hfilters
  refine Ends.lift_bind (paddingPolicy_yields (hrefusal _)) fun policy hpolicy => ?_
  refine (toChannelsFirst_ends hrefusal hmismatch (Graph.type?_mono hle hdata) hdataRank format).bind
    fun moved hle ⟨movedType, hmoved, hmovedRank⟩ => ?_
  refine (transposed_ends hrefusal hmismatch (Graph.type?_mono hle hfilters) [3, 2, 0, 1]).bind
    fun kernels hle ⟨kernelType, hkernels, hkernelRank⟩ => ?_
  refine spatialSizes_bind_ends (Graph.type?_mono hle hmoved) hmovedRank fun image himage => ?_
  refine spatialSizes_bind_ends hkernels hkernelRank fun kernel hkernel => ?_
  refine Ends.lift_bind (paddingMakeDilated_yields (hrefusal _)
    fun hsame size hsize extent hextent dilation hdilation stride hstride h => ?_)
    fun padding _ => ?_
  · exact hoverflow _ (.convolve (hpolicy hsame) (himage size hsize) (hkernel extent hextent)
      (hdilations dilation hdilation) (hstrides stride hstride) h)
  · refine emit_has_bind hmismatch fun result _ hresult => ?_
    exact (ofChannelsFirst_ends hrefusal hmismatch hresult format).bind fun w _ _ =>
      output_ends hrefusal w

theorem pool_ends (average : Bool) (hlength : ws.length = 1) :
    Ends fails g (fun _ => FillsFirst ctx.node.outputs) (Rule.pool average ctx ws g) := by
  refine Ends.lift_bind (needInputs_yields (hrefusal g) 1) fun _ _ => ?_
  refine Ends.lift_bind (dataFormat_yields (hrefusal g)) fun format _ => ?_
  refine Ends.lift_bind (entryAt_wires_yields hws (by omega)) fun x ⟨s, hx⟩ => ?_
  refine needRank_bind_ends hrefusal hx _ 4 fun hrank => ?_
  refine Ends.lift_bind (spatialEntries_yields (hrefusal g) "ksize" format)
    fun window hwindow => ?_
  refine Ends.lift_bind (spatialEntries_yields (hrefusal g) "strides" format)
    fun strides hstrides => ?_
  refine Ends.lift_bind (paddingPolicy_yields (hrefusal g)) fun policy hpolicy => ?_
  refine (toChannelsFirst_ends hrefusal hmismatch hx hrank format).bind
    fun moved _ ⟨movedType, hmoved, hmovedRank⟩ => ?_
  refine spatialSizes_bind_ends hmoved hmovedRank fun image himage => ?_
  refine Ends.lift_bind (paddingMake_yields (hrefusal _)
    fun hsame size hsize extent hextent stride hstride h => ?_) fun padding _ => ?_
  · exact hoverflow _ (.pool (hpolicy hsame) (himage size hsize) (hwindow extent hextent)
      (hstrides stride hstride) h)
  · refine emit_has_bind hmismatch fun result _ hresult => ?_
    exact (ofChannelsFirst_ends hrefusal hmismatch hresult format).bind fun w _ _ =>
      output_ends hrefusal w

end Rules

/-! ### All rules -/

/-- **Every rule ends.** On wires of the arena, one for each slot that the kind lists, the rule fills
the output slots as its kind says or stops for a reason that an input or a size gives. -/
theorem OpKind.rule_ends (kind : OpKind) (ctx : Context) (wf : ctx.graph.WellFormed) {i : Nat}
    (hv : ctx.graph.node? i = some ctx.node) {g : Graph} {ws : List Wire}
    (hws : ∀ w ∈ ws, g.Has w) (hlength : ws.length = (kind.operandSlots.of ctx.node).length) :
    Ends ctx.Stops g (fun _ => kind.Fills ctx.node.outputs) (kind.rule ctx ws g) := by
  have hrefusal : ∀ h e, e.Refusal → ctx.Stops h e := fun _ _ he => .inl he.declared
  have hmismatch : ∀ h cause, ctx.Stops h (.mismatch cause) := fun _ _ => .inl trivial
  have hoverflow : ∀ h, ctx.Overflows h → ctx.Stops h (.internal .overflow) :=
    fun _ h => .inr ⟨rfl, h⟩
  have hall : (kind.operandSlots = .all) → ws.length = ctx.node.inputs := by
    intro h
    rw [hlength, h, OperandSlots.of, List.length_range]
  by_cases hchecks : kind.checksOperands = true
  · exact kind.rule_refuses hrefusal hchecks ctx wf hv hws hlength
  · cases kind with
    | arithmetic f => exact arithmetic_ends hrefusal hmismatch hws f hlength
    | floorDivide => exact floorDivide_ends hrefusal hmismatch hws hlength
    | floorModulo => exact floorModulo_ends hrefusal hmismatch hws hlength
    | addAll => exact addAll_ends hrefusal hmismatch hws (hall rfl)
    | transpose => exact transpose_ends hrefusal hmismatch hws wf hv hlength
    | concat => exact concat_ends hrefusal hmismatch hws wf hv (hall rfl)
    | matMul => exact matMul_ends hrefusal hmismatch hws hlength
    | biasAdd => exact biasAdd_ends hrefusal hmismatch hws hlength
    | convolve => exact convolve_ends hrefusal hmismatch hws hoverflow hlength
    | pool average => exact pool_ends hrefusal hmismatch hws hoverflow average hlength
    | _ => exact absurd rfl hchecks

end GraphLowering
