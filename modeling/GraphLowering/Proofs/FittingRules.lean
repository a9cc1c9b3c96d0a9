import Mathlib
import GraphLowering.Proofs.ReadOutcome
import GraphLowering.Proofs.EqualPieces
import GraphLowering.Proofs.MeanDivisor

/-!
# Rules whose ops always fit

Inference refuses an op that does not fit its operands. About half of the rules never let it come to
that. They look at the shapes of their operands first and refuse the node themselves, or they append
ops that fit whatever the operands are. So such a rule fills the output slots of its node or refuses
the node, and is never stopped by a mismatch of shapes.

* `elements_sizesOff_of_units`, `infer_softmax`, `type_filled` — facts on shapes and types that the
  rules rely on.
* `broadcastTo_fits`, `reshaped_fits`, `emit_output_fits` — steps that cannot be refused.
* `apply_ends`, `squeeze_ends`, `reduce_ends`, `split_ends`, … — how the rules end.
* `OpKind.checksOperands`, `OpKind.rule_refuses` — the kinds of these rules, and how they end.
* `selfChecked_never_mismatch` — in a run, no op of these kinds is stopped by a mismatch.
-/

namespace GraphLowering

open Target

/-! ### Shapes and types -/

/-- Setting axes of size one to one changes nothing. -/
theorem unitSizes_of_units {axes : List Nat} {shape : Shape}
    (h : ∀ axis ∈ axes, shape[axis]? = some 1) : unitSizes axes shape = shape := by
  have hsame : ∀ axis ∈ List.range shape.length,
      (if axis ∈ axes then 1 else shape.getD axis 0) = shape.getD axis 0 := by
    intro axis _
    split
    case isTrue hmem => rw [List.getD_eq_getElem?_getD, h axis hmem, Option.getD_some]
    case isFalse => rfl
  rw [unitSizes_eq, List.map_congr_left hsame, getD_range]

/-- Dropping axes of size one keeps the number of elements. -/
theorem elements_sizesOff_of_units {axes : List Nat} {shape : Shape}
    (h : ∀ axis ∈ axes, shape[axis]? = some 1) :
    shape.elements = (sizesOff axes shape).elements := by
  rw [← elements_unitSizes, unitSizes_of_units h]

theorem infer_softmax {type : TensorType} {axis : Nat} (haxis : axis < type.shape.length) :
    (Op.softmax [axis]).infer [type] = .ok type := by
  simp only [Op.infer, oneOperand, except_ok_bind, checkAxes]
  rw [if_pos ⟨List.nodup_singleton axis, by simpa using haxis⟩]
  rfl

theorem type_filled (element : ElementType) (shape : Shape) (value : Binary64) :
    (Tensor.filled element shape value).type = element :=
  Elements.type_replicate element shape.elements value

/-- A scalar stretches to every shape. -/
theorem Stretches.of_scalar (shape : Shape) : Stretches [] shape :=
  ⟨shape, [], (List.append_nil shape).symm, .nil⟩

/-! ### Steps that cannot be refused -/

section Steps

variable {fails : Graph → Error → Prop} {ctx : Context} {g : Graph} {x : Wire} {type : TensorType}

theorem broadcastTo_fits {target : Shape} (hx : g.type? x = some type)
    (hs : Stretches type.shape target) :
    Ends fails g (fun h y => h.type? y = some ⟨type.element, target⟩)
      (broadcastTo ctx x target g) := by
  obtain ⟨y, h, hrun, hle, hy⟩ := exists_broadcastTo ctx hx hs
  rw [hrun]
  exact .ok hle hy

theorem reshaped_fits {shape : Shape} (hx : g.type? x = some type)
    (helements : type.shape.elements = shape.elements) :
    Ends fails g (fun h y => h.type? y = some ⟨type.element, shape⟩) (reshaped x shape g) := by
  rw [reshaped_run hx helements]
  exact .ok (g.le_push _ _ _) (g.type?_push_self _ _ _)

/-- The type of an op on one wire. -/
theorem infer_one {op : Op} {result : TensorType} (hx : g.type? x = some type)
    (hinfer : op.infer [type] = .ok result) : g.infer op [x] = .ok result := by
  rw [Graph.infer_of_types (Graph.types_one hx), hinfer]

variable (hrefusal : ∀ g e, e.Refusal → fails g e)
include hrefusal

theorem emit_output_fits {op : Op} {ws : List Wire} (hinfer : g.infer op ws = .ok type) :
    Ends fails g (fun _ => FillsFirst ctx.node.outputs)
      ((emit op ws >>= fun w => (liftM (ctx.output w) : Emit Outputs)) g) :=
  (Ends.emit_fitting hinfer).bind fun w _ _ => output_ends hrefusal w

end Steps

/-! ### Elementwise rules -/

section Rules

variable {fails : Graph → Error → Prop} (hrefusal : ∀ g e, e.Refusal → fails g e) {ctx : Context}
  {g : Graph} {ws : List Wire} (hws : ∀ w ∈ ws, g.Has w)
include hrefusal hws

theorem apply_ends (f : UnaryOp) (hlength : ws.length = 1) :
    Ends fails g (fun _ => FillsFirst ctx.node.outputs) (Rule.apply f ctx ws g) := by
  refine Ends.lift_bind (needInputs_yields (hrefusal g) 1) fun _ _ => ?_
  refine Ends.lift_bind (entryAt_wires_yields hws (by omega)) fun x ⟨type, hx⟩ => ?_
  exact emit_output_fits hrefusal (infer_one hx rfl)

/-- The bound is a scalar of the operand's elements, so it stretches to the operand's type. -/
theorem reluSix_ends (hlength : ws.length = 1) :
    Ends fails g (fun _ => FillsFirst ctx.node.outputs) (Rule.reluSix ctx ws g) := by
  refine Ends.lift_bind (needInputs_yields (hrefusal g) 1) fun _ _ => ?_
  refine Ends.lift_bind (entryAt_wires_yields hws (by omega)) fun x ⟨type, hx⟩ => ?_
  refine (Ends.emit_fitting (infer_one hx rfl)).bind fun positive hle hpositive => ?_
  refine Ends.typeOf_bind (Graph.type?_mono hle hx) ?_
  refine Ends.emitConstant_bind fun bound hle hbound => ?_
  rw [type_filled] at hbound
  refine (broadcastTo_fits hbound (.of_scalar type.shape)).bind fun wide hle' hwide => ?_
  exact emit_output_fits hrefusal
    (infer_binary_same .minimum (Graph.type?_mono (hle.trans hle') hpositive) hwide)

theorem square_ends (hlength : ws.length = 1) :
    Ends fails g (fun _ => FillsFirst ctx.node.outputs) (Rule.square ctx ws g) := by
  refine Ends.lift_bind (needInputs_yields (hrefusal g) 1) fun _ _ => ?_
  refine Ends.lift_bind (entryAt_wires_yields hws (by omega)) fun x ⟨type, hx⟩ => ?_
  exact emit_output_fits hrefusal (infer_binary_same .multiply hx hx)

theorem cast_ends (hlength : ws.length = 1) :
    Ends fails g (fun _ => FillsFirst ctx.node.outputs) (Rule.cast ctx ws g) := by
  refine Ends.lift_bind (needInputs_yields (hrefusal g) 1) fun _ _ => ?_
  refine Ends.lift_bind (attrOfKind_yields (hrefusal g) _ _ _ _) fun target _ => ?_
  refine Ends.lift_bind (element_yields (hrefusal g) target) fun element _ => ?_
  refine Ends.lift_bind (entryAt_wires_yields hws (by omega)) fun x ⟨type, hx⟩ => ?_
  exact emit_output_fits hrefusal (infer_one hx rfl)

/-! ### Layout -/

theorem identity_ends (hlength : ws.length = 1) :
    Ends fails g (fun _ => FillsFirst ctx.node.outputs) (Rule.identity ctx ws g) := by
  refine Ends.lift_bind (needInputs_yields (hrefusal g) 1) fun _ _ => ?_
  refine Ends.lift_bind (entryAt_wires_yields hws (by omega)) fun x _ => ?_
  exact output_ends hrefusal x

omit hws in
theorem constant_ends (ws : List Wire) :
    Ends fails g (fun _ => FillsFirst ctx.node.outputs) (Rule.constant ctx ws g) := by
  refine Ends.lift_bind (attrOfKind_yields (hrefusal g) _ _ _ _) fun value _ => ?_
  have hmade : Ends fails g (fun _ => FillsFirst ctx.node.outputs)
      ((emitConstant value >>= fun w => liftM (ctx.output w)) g) :=
    Ends.emitConstant_bind fun w _ _ => output_ends hrefusal w
  cases ctx.node.attr? "dtype" with
  | none => exact hmade
  | some attr =>
    cases attr with
    | type type =>
      refine Ends.lift_bind (element_yields (hrefusal g) type) fun element _ => ?_
      split
      · exact Ends.throw_bind (hrefusal _ _ trivial)
      · exact hmade
    | _ => exact hmade

theorem squeeze_ends (hlength : ws.length = 1) :
    Ends fails g (fun _ => FillsFirst ctx.node.outputs) (Rule.squeeze ctx ws g) := by
  refine Ends.lift_bind (needInputs_yields (hrefusal g) 1) fun _ _ => ?_
  refine Ends.lift_bind (entryAt_wires_yields hws (by omega)) fun x ⟨type, hx⟩ => ?_
  refine Ends.shapeOf_bind hx ?_
  refine Ends.lift_bind (attrOfKind?_yields (hrefusal g) _ _ _ _) fun requested _ => ?_
  refine Ends.lift_bind (squeezedAxes_yields (hrefusal g) _ _) fun dropped hdropped => ?_
  exact (reshaped_fits hx (elements_sizesOff_of_units hdropped)).bind fun w _ _ =>
    output_ends hrefusal w

theorem softmax_ends (hlength : ws.length = 1) :
    Ends fails g (fun _ => FillsFirst ctx.node.outputs) (Rule.softmax ctx ws g) := by
  refine Ends.lift_bind (needInputs_yields (hrefusal g) 1) fun _ _ => ?_
  refine Ends.lift_bind (entryAt_wires_yields hws (by omega)) fun x ⟨type, hx⟩ => ?_
  refine Ends.shapeOf_bind hx ?_
  dsimp only
  split
  case isTrue => exact Ends.throw_bind (hrefusal _ _ trivial)
  case isFalse hrank =>
    refine Ends.lift_bind (minus_yields (by omega)) fun last hlast => ?_
    exact emit_output_fits hrefusal (infer_one hx (infer_softmax (by omega)))

/-! ### Rules that read a value -/

section Static

variable (wf : ctx.graph.WellFormed) {i : Nat} (hv : ctx.graph.node? i = some ctx.node)
include wf hv

theorem reshape_ends (hlength : ws.length = 1) :
    Ends fails g (fun _ => FillsFirst ctx.node.outputs) (Rule.reshape ctx ws g) := by
  refine Ends.lift_bind (needInputs_yields (hrefusal g) 2) fun _ _ => ?_
  refine Ends.lift_bind (staticInts_yields (hrefusal g) wf hv 1) fun dims _ => ?_
  refine Ends.lift_bind (entryAt_wires_yields hws (by omega)) fun x ⟨type, hx⟩ => ?_
  refine Ends.shapeOf_bind hx ?_
  refine Ends.lift_bind (inferDims_yields (hrefusal g) dims _) fun shape hshape => ?_
  exact (reshaped_fits hx hshape.symm).bind fun w _ _ => output_ends hrefusal w

/-- The divisor of a mean has the type of the sum, and kept axes have size one. -/
theorem reduce_ends (mean : Bool) (hlength : ws.length = 1) :
    Ends fails g (fun _ => FillsFirst ctx.node.outputs) (Rule.reduce mean ctx ws g) := by
  refine Ends.lift_bind (needInputs_yields (hrefusal g) 2) fun _ _ => ?_
  refine Ends.lift_bind (entryAt_wires_yields hws (by omega)) fun x ⟨type, hx⟩ => ?_
  refine Ends.shapeOf_bind hx ?_
  refine Ends.lift_bind (reductionAxes_yields (hrefusal g) wf hv _) fun axes ⟨hnodup, haxes⟩ => ?_
  refine Ends.lift_bind (boolOr_yields (hrefusal g) _ _ _) fun keep _ => ?_
  have hsum := infer_one hx (infer_sum ⟨hnodup, by simpa using haxes⟩)
  refine (Ends.emit_fitting hsum).bind fun total _ htotal => ?_
  dsimp only
  -- the last step is the same for sums and means
  have hkeep : ∀ {h : Graph} {w : Wire},
      h.type? w = some ⟨type.element, sizesOff axes type.shape⟩ → Ends fails h
      (fun _ => FillsFirst ctx.node.outputs)
      ((if keep = true then reshaped w (unitSizes axes type.shape) >>= fun result =>
          (liftM (ctx.output result) : Emit Outputs)
        else pure w >>= fun result => liftM (ctx.output result)) h) := by
    intro h w hw
    split
    · exact (reshaped_fits hw (elements_unitSizes _ _).symm).bind fun y _ _ =>
        output_ends hrefusal y
    · exact Ends.pure_bind (output_ends hrefusal w)
  split
  · refine Ends.lift_bind (elementsAlong_yields haxes) fun count _ => ?_
    refine Ends.typeOf_bind htotal (Ends.emitConstant_bind fun divisor hle hdivisor => ?_)
    rw [type_filled] at hdivisor
    have hquotient := infer_binary_same .divide (Graph.type?_mono hle htotal) hdivisor
    exact (Ends.emit_fitting hquotient).bind fun result _ hresult => hkeep hresult
  · exact Ends.pure_bind (hkeep htotal)

/-- A split into no pieces has been refused before anything is divided, and equal pieces lie within
the axis. -/
theorem split_ends (hlength : ws.length = 1) :
    Ends fails g (fun _ outputs => ∃ wires : List Wire, outputs = wires.map some ∧
      wires.length = ctx.node.outputs) (Rule.split ctx ws g) := by
  refine Ends.lift_bind (needInputs_yields (hrefusal g) 2) fun _ _ => ?_
  refine Ends.lift_bind (attrOfKind_yields (hrefusal g) _ _ _ _) fun pieces _ => ?_
  dsimp only
  split
  case isTrue => exact Ends.throw_bind (hrefusal _ _ trivial)
  case isFalse hpieces =>
    have houtputs : ctx.node.outputs ≠ 0 := by omega
    refine Ends.lift_bind (entryAt_wires_yields hws (by omega)) fun x ⟨type, hx⟩ => ?_
    refine Ends.shapeOf_bind hx ?_
    refine Ends.lift_bind (axisValue_yields (hrefusal g) wf hv 0) fun value _ => ?_
    refine Ends.lift_bind (axis_yields (hrefusal g) value _) fun axis haxis => ?_
    refine Ends.lift_bind (entryAt_yields haxis) fun length hlength => ?_
    refine Ends.lift_bind (remainder_yields houtputs) fun left _ => ?_
    split
    · exact Ends.throw_bind (hrefusal _ _ trivial)
    · refine Ends.lift_bind (quotient_yields houtputs) fun size hsize => ?_
      have hwithin : ∀ k ∈ List.range ctx.node.outputs, (k + 1) * size ≤ length := by
        intro k hk
        rw [hsize]
        calc (k + 1) * (length / ctx.node.outputs)
            ≤ ctx.node.outputs * (length / ctx.node.outputs) :=
              Nat.mul_le_mul_right _ (List.mem_range.mp hk)
          _ ≤ length := Nat.mul_div_le length ctx.node.outputs
      refine (Ends.mapM_length fun k hk hle => ?_).bind fun slices _ hslices => ?_
      · have hpiece := infer_piece hlength type.element (hwithin k hk)
        exact (Ends.emit_fitting (infer_one (Graph.type?_mono hle hx) hpiece)).mono
          fun _ _ _ => trivial
      · exact Ends.pure ⟨slices, rfl, by rw [hslices, List.length_range]⟩

end Static

end Rules

/-! ### All of these rules -/

/-- The kinds whose rules check their operands before they append ops. -/
def OpKind.checksOperands : OpKind → Bool
  | apply _ | reluSix | square | cast | identity | nothing | constant | reshape | squeeze
  | reduce _ | split | softmax => true
  | _ => false

/-- **A rule that checks its operands refuses the node itself.** On wires of the arena, one for each
slot that the kind lists, it fills the output slots as its kind says or stops with a refusal. -/
theorem OpKind.rule_refuses {fails : Graph → Error → Prop}
    (hrefusal : ∀ g e, e.Refusal → fails g e) {kind : OpKind} (hkind : kind.checksOperands = true)
    (ctx : Context) (wf : ctx.graph.WellFormed) {i : Nat} (hv : ctx.graph.node? i = some ctx.node)
    {g : Graph} {ws : List Wire} (hws : ∀ w ∈ ws, g.Has w)
    (hlength : ws.length = (kind.operandSlots.of ctx.node).length) :
    Ends fails g (fun _ => kind.Fills ctx.node.outputs) (kind.rule ctx ws g) := by
  cases kind with
  | apply f => exact apply_ends hrefusal hws f hlength
  | reluSix => exact reluSix_ends hrefusal hws hlength
  | square => exact square_ends hrefusal hws hlength
  | cast => exact cast_ends hrefusal hws hlength
  | identity => exact identity_ends hrefusal hws hlength
  | nothing => exact Ends.pure rfl
  | constant => exact constant_ends hrefusal ws
  | reshape => exact reshape_ends hrefusal hws wf hv hlength
  | squeeze => exact squeeze_ends hrefusal hws hlength
  | reduce mean => exact reduce_ends hrefusal hws wf hv mean hlength
  | split => exact split_ends hrefusal hws wf hv hlength
  | softmax => exact softmax_ends hrefusal hws hlength
  | _ => cases hkind

/-- The op types of these kinds. -/
def selfCheckedOps : List String :=
  ["Neg", "Floor", "Relu", "Relu6", "Sigmoid", "Tanh", "Exp", "Sqrt", "Square", "Cast", "Identity",
   "StopGradient", "Snapshot", "NoOp", "Const", "Reshape", "Squeeze", "Sum", "Mean", "Split",
   "Softmax"]

theorem exists_checksOperands :
    ∀ op ∈ selfCheckedOps, ∃ kind, OpKind.ofName? op = some kind ∧ kind.checksOperands = true := by
  have hall : ∀ op ∈ selfCheckedOps, (OpKind.ofName? op).any OpKind.checksOperands = true := by
    decide
  intro op hop
  have hany := hall op hop
  rwa [Option.any_eq_true] at hany

/-- **No mismatch in rules that check their operands.** Let a run of a prepared graph meet an op of one
of these types, whatever the arguments, the attributes and the values on its slots are. The op type has
a rule, and on the operands that are found for the op the rule does not end with a mismatch of shapes:
it fills the output slots, or it refuses the node for a reason that an input can cause. -/
theorem selfChecked_never_mismatch {source : Source.Graph} {c : Compiled} (hbuilt : source.Built)
    (hprepare : prepare source = .ok c) {args : List Argument} {i : Nat} {run : Run}
    (hmeets : c.Meets args i run) {v : Source.Node} (hv : source.node? i = some v)
    (hop : v.op ∈ selfCheckedOps) :
    ∃ kind, OpKind.ofName? v.op = some kind ∧
      ∀ ws, (kind.operandSlots.of v).mapM (resolveInput source run.outputs v) = .ok ws →
        (∀ cause h, kind.rule ⟨v, source, c.statics args⟩ ws run.target ≠ .error (.mismatch cause) h) ∧
        ((∃ outputs h, kind.rule ⟨v, source, c.statics args⟩ ws run.target = .ok outputs h ∧
            kind.Fills v.outputs outputs) ∨
          ∃ e h, kind.rule ⟨v, source, c.statics args⟩ ws run.target = .error e h ∧ e.Refusal) := by
  have hc := prepared_of_prepare hbuilt.wellFormed hprepare
  obtain ⟨rfl, -⟩ := prepare_eq_ok hprepare
  obtain ⟨kind, hkind, hchecks⟩ := exists_checksOperands v.op hop
  refine ⟨kind, hkind, fun ws hws => ?_⟩
  obtain ⟨done, rest, start, slots, -, -, hops⟩ := hc.meets_spec hmeets
  have hends : Ends (fun _ => Error.Refusal) run.target (fun _ => kind.Fills v.outputs)
      (kind.rule ⟨v, c.graph, c.statics args⟩ ws run.target) :=
    kind.rule_refuses (fun _ _ he => he) hchecks ⟨v, c.graph, c.statics args⟩ hc.wf hv
      (hops.covers.has_of_mapM hc.wf hv hws) (except_mapM_eq_ok.mp hws).length_eq.symm
  cases hrule : kind.rule ⟨v, c.graph, c.statics args⟩ ws run.target with
  | ok outputs h =>
    rw [hrule] at hends
    cases hends with
    | ok _ hfills => exact ⟨nofun, .inl ⟨outputs, h, rfl, hfills⟩⟩
  | error e h =>
    rw [hrule] at hends
    cases hends with
    | error _ hrefused =>
      refine ⟨?_, .inr ⟨e, h, rfl, hrefused⟩⟩
      rintro cause _ ⟨⟩
      exact hrefused

/-- A tensor that is cut into three pieces along its last axis. -/
def thirds : Source.Graph := Source.Graph.build [
  .node { name := "x", op := "_Arg",
          attrs := (NameTable.empty.insert "T" (.type .float)).insert "index" (.int 0) },
  .node { name := "axis", op := "Const",
          attrs := NameTable.empty.insert "value" (.tensor (.vector64 [-1])) },
  .node { name := "parts", op := "Split", outputs := 3,
          attrs := NameTable.empty.insert "num_split" (.int 3) },
  .edge 1 0 2 0, .edge 0 0 2 1]

/-- Seven columns are refused by the rule of the split, and not by the slices that it would append. -/
theorem thirds_refused :
    ∃ c run v h, prepare thirds = .ok c ∧ c.Meets [⟨.float, [2, 7], none⟩] 2 run ∧
      thirds.node? 2 = some v ∧
      OpKind.split.rule ⟨v, thirds, [none]⟩ [0] run.target =
        .error (.rule "parts" "Split" (.notDivisible 1 [2, 7] 3)) h ∧
      ∀ cause h', OpKind.split.rule ⟨v, thirds, [none]⟩ [0] run.target ≠
        .error (.mismatch cause) h' := by
  have hprepare : prepare thirds = .ok ⟨thirds, ⟨[0], [], [1, 2]⟩, [false]⟩ := by rfl
  obtain ⟨run, v, h, hmeets, hv, hws, hrule⟩ : ∃ run v h,
      (⟨thirds, ⟨[0], [], [1, 2]⟩, [false]⟩ : Compiled).Meets [⟨.float, [2, 7], none⟩] 2 run ∧
      thirds.node? 2 = some v ∧ [1].mapM (resolveInput thirds run.outputs v) = .ok [0] ∧
      OpKind.split.rule ⟨v, thirds, [none]⟩ [0] run.target =
        .error (.rule "parts" "Split" (.notDivisible 1 [2, 7] 3)) h :=
    ⟨_, _, _, ⟨[1], [], _, _, rfl, rfl, rfl⟩, rfl, rfl, rfl⟩
  obtain rfl := Option.some.inj hv
  obtain ⟨kind, hkind, hnever⟩ := selfChecked_never_mismatch ⟨_, rfl⟩ hprepare hmeets rfl (by decide)
  obtain rfl : OpKind.split = kind := Option.some.inj hkind
  exact ⟨_, run, _, h, hprepare, hmeets, rfl, hrule, (hnever [0] hws).1⟩

end GraphLowering
