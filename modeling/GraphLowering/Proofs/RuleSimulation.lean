import Mathlib
import GraphLowering.Proofs.RuleReads

/-!
# Every lowering rule keeps what is alike

Run in contexts that agree, on wires that are alike, a rule succeeds on both arenas with outputs
that are alike, or fails on both. The proof follows each rule from step to step; the theorem for all
kinds is `OpKind.rule_twin`. It holds for every simulation, so it says at once that rules do not
look at the numbers of wires, that they only append, that their nodes are well typed, and on which
slots they read values.

* `OutputsAlike` — output slots that are filled in the same places with wires that are alike.
* `broadcastTo_twin`, `transposed_twin`, … — the steps that rules share.
* `arithmetic_twin`, `reduce_twin`, … — the rules.
-/

namespace GraphLowering

open Target

/-- Output slots that are filled in the same places, with wires that are alike. -/
def OutputsAlike (S : Simulation) (h h' : Graph) : Outputs → Outputs → Prop :=
  List.Forall₂ (Option.Rel (S.wires h h'))

variable {S : Simulation} {slots : Nat → Prop} {ctx ctx' : Context} {g g' : Graph}
  {ws ws' : List Wire} {x x' : Wire}

/-! ### Operands and outputs -/

theorem entryAt_wires (hws : List.Forall₂ (S.wires g g') ws ws') (i : Nat) :
    Paired (ctx.Fails slots ctx') (S.wires g g') (entryAt ws i) (entryAt ws' i) := by
  unfold entryAt
  rw [hws.length_eq]
  have h := forall₂_getElem? hws i
  generalize ws[i]? = o at h
  generalize ws'[i]? = o' at h
  cases h with
  | some hw => exact .ok hw
  | none => exact .error (.plain (.internal _))

/-- Outputs stay alike while the arenas grow. -/
theorem OutputsAlike.mono {h h' k k' : Graph} {outputs outputs' : Outputs}
    (halike : OutputsAlike S h h' outputs outputs') (hle : h ≤ k) (hle' : h' ≤ k') :
    OutputsAlike S k k' outputs outputs' := by
  refine List.Forall₂.imp (fun o o' ho => ?_) halike
  cases ho with
  | some hw => exact .some (S.wires_mono hle hle' hw)
  | none => exact .none

theorem noOutputs_alike (h h' : Graph) (count : Nat) :
    OutputsAlike S h h' (List.replicate count none) (List.replicate count none) := by
  induction count with
  | zero => exact .nil
  | succ count ih => exact .cons .none ih

theorem output_twin (agree : ctx.Agree slots ctx') (harenas : S.arenas g g')
    (hx : S.wires g g' x x') :
    Twin S (ctx.Fails slots ctx') g g' (OutputsAlike S) ((liftM (ctx.output x) : Emit Outputs) g)
      ((liftM (ctx'.output x') : Emit Outputs) g') := by
  refine Twin.lift harenas ?_ fun _ _ h => h
  unfold Context.output Context.setOutput Context.noOutputs
  rw [← agree.outputs]
  cases ctx.node.outputs with
  | zero => exact Context.refused nofun
  | succ count => exact .ok (.cons (.some hx) (noOutputs_alike g g' count))

/-! ### Steps that rules share -/

theorem needRank_bind {α β : Type} {post : Graph → Graph → α → β → Prop} {f : Unit → Emit α}
    {f' : Unit → Emit β} (harenas : S.arenas g g') (hx : S.wires g g' x x') (what : String)
    (rank : Nat) (hf : Twin S (ctx.Fails slots ctx') g g' post (f () g) (f' () g')) :
    Twin S (ctx.Fails slots ctx') g g' post ((needRank ctx what x rank >>= f) g)
      ((needRank ctx' what x' rank >>= f') g') := by
  unfold needRank
  rw [bind_assoc, bind_assoc]
  refine Twin.shapeOf_bind hx fun shape => ?_
  split
  · exact Twin.throw_bind harenas (.refuse _ nofun)
  · exact Twin.pure_bind hf

theorem transposed_twin (harenas : S.arenas g g') (hx : S.wires g g' x x') (order : List Nat) :
    Twin S (ctx.Fails slots ctx') g g' S.wires (transposed ctx x order g)
      (transposed ctx' x' order g') := by
  refine Twin.shapeOf_bind hx fun shape => ?_
  cases order.mapM fun axis => shape[axis]? with
  | none => exact Twin.throw harenas (.refuse _ nofun)
  | some target => exact Twin.emit Context.fails_of_plain harenas (.cons hx .nil)

theorem reshaped_twin (harenas : S.arenas g g') (hx : S.wires g g' x x') (shape : Shape) :
    Twin S (ctx.Fails slots ctx') g g' S.wires (reshaped x shape g) (reshaped x' shape g') := by
  refine Twin.shapeOf_bind hx fun source => ?_
  exact Twin.emit Context.fails_of_plain harenas (.cons hx .nil)

theorem broadcastTo_twin (harenas : S.arenas g g') (hx : S.wires g g' x x') (target : Shape) :
    Twin S (ctx.Fails slots ctx') g g' S.wires (broadcastTo ctx x target g)
      (broadcastTo ctx' x' target g') := by
  refine Twin.shapeOf_bind hx fun shape => ?_
  dsimp only
  split
  · exact Twin.pure harenas hx
  · split
    · exact Twin.throw_bind harenas (.refuse _ nofun)
    · refine Twin.lift_bind_eq harenas (minus_paired Context.fails_of_plain _ _) fun missing => ?_
      split
      · exact Twin.throw_bind harenas (.refuse _ nofun)
      · split
        · refine Twin.pure_bind ?_
          exact Twin.emit Context.fails_of_plain harenas (.cons hx .nil)
        · refine Twin.emit_bind Context.fails_of_plain harenas (.cons hx .nil)
            fun y y' _ _ harenas hy => ?_
          exact Twin.emit Context.fails_of_plain harenas (.cons hy .nil)

theorem broadcastBoth_twin {a a' b b' : Wire} (harenas : S.arenas g g') (ha : S.wires g g' a a')
    (hb : S.wires g g' b b') :
    Twin S (ctx.Fails slots ctx') g g'
      (fun h h' p p' => S.wires h h' p.1 p'.1 ∧ S.wires h h' p.2 p'.2)
      (broadcastBoth ctx a b g) (broadcastBoth ctx' a' b' g') := by
  refine Twin.shapeOf_bind ha fun s => Twin.shapeOf_bind hb fun t => ?_
  cases broadcastShapes s t with
  | none => exact Twin.throw harenas (.refuse _ nofun)
  | some target =>
    refine (broadcastTo_twin harenas ha target).bind fun c c' hle hle' harenas hc => ?_
    refine (broadcastTo_twin harenas (S.wires_mono hle hle' hb) _).bind
      fun d d' hle hle' harenas hd => ?_
    exact Twin.pure harenas ⟨S.wires_mono hle hle' hc, hd⟩

/-! ### Elementwise rules -/

section Rules

variable (agree : ctx.Agree slots ctx') (harenas : S.arenas g g')
  (hws : List.Forall₂ (S.wires g g') ws ws')
include agree harenas hws

theorem arithmetic_twin (f : BinaryOp) :
    Twin S (ctx.Fails slots ctx') g g' (OutputsAlike S) (Rule.arithmetic f ctx ws g)
      (Rule.arithmetic f ctx' ws' g') := by
  refine Twin.lift_bind_eq harenas (agree.needInputs_paired 2) fun _ => ?_
  refine Twin.lift_bind harenas (entryAt_wires hws 0) fun a a' ha => ?_
  refine Twin.lift_bind harenas (entryAt_wires hws 1) fun b b' hb => ?_
  refine (broadcastBoth_twin harenas ha hb).bind fun (a, b) (a', b') _ _ harenas hab => ?_
  refine Twin.emit_bind Context.fails_of_plain harenas (.cons hab.1 (.cons hab.2 .nil))
    fun w w' _ _ harenas hw => ?_
  exact output_twin agree harenas hw

theorem floorDivide_twin :
    Twin S (ctx.Fails slots ctx') g g' (OutputsAlike S) (Rule.floorDivide ctx ws g)
      (Rule.floorDivide ctx' ws' g') := by
  refine Twin.lift_bind_eq harenas (agree.needInputs_paired 2) fun _ => ?_
  refine Twin.lift_bind harenas (entryAt_wires hws 0) fun a a' ha => ?_
  refine Twin.lift_bind harenas (entryAt_wires hws 1) fun b b' hb => ?_
  refine (broadcastBoth_twin harenas ha hb).bind fun (a, b) (a', b') _ _ harenas hab => ?_
  refine Twin.emit_bind Context.fails_of_plain harenas (.cons hab.1 (.cons hab.2 .nil))
    fun quotient quotient' _ _ harenas hquotient => ?_
  refine Twin.emit_bind Context.fails_of_plain harenas (.cons hquotient .nil)
    fun w w' _ _ harenas hw => ?_
  exact output_twin agree harenas hw

theorem floorModulo_twin :
    Twin S (ctx.Fails slots ctx') g g' (OutputsAlike S) (Rule.floorModulo ctx ws g)
      (Rule.floorModulo ctx' ws' g') := by
  refine Twin.lift_bind_eq harenas (agree.needInputs_paired 2) fun _ => ?_
  refine Twin.lift_bind harenas (entryAt_wires hws 0) fun a a' ha => ?_
  refine Twin.lift_bind harenas (entryAt_wires hws 1) fun b b' hb => ?_
  refine (broadcastBoth_twin harenas ha hb).bind fun (a, b) (a', b') _ _ harenas hab => ?_
  refine Twin.emit_bind Context.fails_of_plain harenas (.cons hab.1 (.cons hab.2 .nil))
    fun quotient quotient' hq hq' harenas hquotient => ?_
  refine Twin.emit_bind Context.fails_of_plain harenas (.cons hquotient .nil)
    fun floored floored' hf hf' harenas hfloored => ?_
  -- both operands are read again, in arenas that have grown since
  have hb := S.wires_mono (hq.trans hf) (hq'.trans hf') hab.2
  refine Twin.emit_bind Context.fails_of_plain harenas (.cons hfloored (.cons hb .nil))
    fun scaled scaled' hs hs' harenas hscaled => ?_
  have ha := S.wires_mono ((hq.trans hf).trans hs) ((hq'.trans hf').trans hs') hab.1
  refine Twin.emit_bind Context.fails_of_plain harenas (.cons ha (.cons hscaled .nil))
    fun w w' _ _ harenas hw => ?_
  exact output_twin agree harenas hw

theorem addAll_twin :
    Twin S (ctx.Fails slots ctx') g g' (OutputsAlike S) (Rule.addAll ctx ws g)
      (Rule.addAll ctx' ws' g') := by
  refine Twin.lift_bind_eq harenas (agree.needInputsAtLeast_paired 1) fun _ => ?_
  refine Twin.lift_bind harenas (entryAt_wires hws 0) fun first first' hfirst => ?_
  refine (Twin.foldlM_wires ?_ harenas (List.forall₂_drop 1 hws) hfirst).bind
    fun total total' _ _ harenas htotal => ?_
  · intro h h' acc acc' y y' harenas hacc hy
    exact Twin.emit Context.fails_of_plain harenas (.cons hacc (.cons hy .nil))
  · exact output_twin agree harenas htotal

theorem apply_twin (f : UnaryOp) :
    Twin S (ctx.Fails slots ctx') g g' (OutputsAlike S) (Rule.apply f ctx ws g)
      (Rule.apply f ctx' ws' g') := by
  refine Twin.lift_bind_eq harenas (agree.needInputs_paired 1) fun _ => ?_
  refine Twin.lift_bind harenas (entryAt_wires hws 0) fun a a' ha => ?_
  refine Twin.emit_bind Context.fails_of_plain harenas (.cons ha .nil)
    fun w w' _ _ harenas hw => ?_
  exact output_twin agree harenas hw

theorem reluSix_twin :
    Twin S (ctx.Fails slots ctx') g g' (OutputsAlike S) (Rule.reluSix ctx ws g)
      (Rule.reluSix ctx' ws' g') := by
  refine Twin.lift_bind_eq harenas (agree.needInputs_paired 1) fun _ => ?_
  refine Twin.lift_bind harenas (entryAt_wires hws 0) fun a a' ha => ?_
  refine Twin.emit_bind Context.fails_of_plain harenas (.cons ha .nil)
    fun positive positive' hp hp' harenas hpositive => ?_
  refine Twin.typeOf_bind (S.wires_mono hp hp' ha) fun type => ?_
  refine Twin.emitConstant_bind harenas fun bound bound' hb hb' harenas hbound => ?_
  refine (broadcastTo_twin harenas hbound _).bind fun wide wide' hw hw' harenas hwide => ?_
  have hpositive := S.wires_mono (hb.trans hw) (hb'.trans hw') hpositive
  refine Twin.emit_bind Context.fails_of_plain harenas (.cons hpositive (.cons hwide .nil))
    fun w w' _ _ harenas hw => ?_
  exact output_twin agree harenas hw

theorem square_twin :
    Twin S (ctx.Fails slots ctx') g g' (OutputsAlike S) (Rule.square ctx ws g)
      (Rule.square ctx' ws' g') := by
  refine Twin.lift_bind_eq harenas (agree.needInputs_paired 1) fun _ => ?_
  refine Twin.lift_bind harenas (entryAt_wires hws 0) fun a a' ha => ?_
  refine Twin.emit_bind Context.fails_of_plain harenas (.cons ha (.cons ha .nil))
    fun w w' _ _ harenas hw => ?_
  exact output_twin agree harenas hw

theorem cast_twin :
    Twin S (ctx.Fails slots ctx') g g' (OutputsAlike S) (Rule.cast ctx ws g)
      (Rule.cast ctx' ws' g') := by
  refine Twin.lift_bind_eq harenas (agree.needInputs_paired 1) fun _ => ?_
  refine Twin.lift_bind_eq harenas (agree.attrOfKind_paired _ _ _) fun type => ?_
  refine Twin.lift_bind_eq harenas (element_paired Context.fails_of_plain type) fun element => ?_
  refine Twin.lift_bind harenas (entryAt_wires hws 0) fun a a' ha => ?_
  refine Twin.emit_bind Context.fails_of_plain harenas (.cons ha .nil)
    fun w w' _ _ harenas hw => ?_
  exact output_twin agree harenas hw

/-! ### Layout, pieces and reductions -/

theorem identity_twin :
    Twin S (ctx.Fails slots ctx') g g' (OutputsAlike S) (Rule.identity ctx ws g)
      (Rule.identity ctx' ws' g') := by
  refine Twin.lift_bind_eq harenas (agree.needInputs_paired 1) fun _ => ?_
  refine Twin.lift_bind harenas (entryAt_wires hws 0) fun a a' ha => ?_
  exact output_twin agree harenas ha

omit hws in
theorem nothing_twin (ws ws' : List Wire) :
    Twin S (ctx.Fails slots ctx') g g' (OutputsAlike S) (Rule.nothing ctx ws g)
      (Rule.nothing ctx' ws' g') := by
  refine Twin.pure harenas ?_
  unfold Context.noOutputs
  rw [← agree.outputs]
  exact noOutputs_alike g g' ctx.node.outputs

omit hws in
theorem constant_twin (ws ws' : List Wire) :
    Twin S (ctx.Fails slots ctx') g g' (OutputsAlike S) (Rule.constant ctx ws g)
      (Rule.constant ctx' ws' g') := by
  refine Twin.lift_bind_eq harenas (agree.attrOfKind_paired _ _ _) fun value => ?_
  rw [← agree.attr "dtype"]
  have hmade : Twin S (ctx.Fails slots ctx') g g' (OutputsAlike S)
      ((emitConstant value >>= fun w => liftM (ctx.output w)) g)
      ((emitConstant value >>= fun w => liftM (ctx'.output w)) g') :=
    Twin.emitConstant_bind harenas fun w w' _ _ harenas hw => output_twin agree harenas hw
  cases ctx.node.attr? "dtype" with
  | none => exact hmade
  | some attr =>
    cases attr with
    | type type =>
      refine Twin.lift_bind_eq harenas (element_paired Context.fails_of_plain type)
        fun element => ?_
      split
      · exact Twin.throw_bind harenas (.refuse _ nofun)
      · exact hmade
    | _ => exact hmade

theorem reshape_twin (hslot : slots 1) :
    Twin S (ctx.Fails slots ctx') g g' (OutputsAlike S) (Rule.reshape ctx ws g)
      (Rule.reshape ctx' ws' g') := by
  refine Twin.lift_bind_eq harenas (agree.needInputs_paired 2) fun _ => ?_
  refine Twin.lift_bind_eq harenas (agree.staticInts_paired hslot) fun dims => ?_
  refine Twin.lift_bind harenas (entryAt_wires hws 0) fun a a' ha => ?_
  refine Twin.shapeOf_bind ha fun shape => ?_
  refine Twin.lift_bind_eq harenas (Context.Agree.inferDims_paired dims _) fun target => ?_
  refine (reshaped_twin harenas ha target).bind fun w w' _ _ harenas hw => ?_
  exact output_twin agree harenas hw

theorem transpose_twin (hslot : slots 1) :
    Twin S (ctx.Fails slots ctx') g g' (OutputsAlike S) (Rule.transpose ctx ws g)
      (Rule.transpose ctx' ws' g') := by
  refine Twin.lift_bind_eq harenas (agree.needInputs_paired 2) fun _ => ?_
  refine Twin.lift_bind_eq harenas (agree.staticInts_paired hslot) fun permutation => ?_
  refine Twin.lift_bind harenas (entryAt_wires hws 0) fun a a' ha => ?_
  refine Twin.shapeOf_bind ha fun shape => ?_
  dsimp only
  split
  · exact Twin.throw_bind harenas (.refuse _ nofun)
  · rw [Twin.mapM_lift, Twin.mapM_lift]
    refine Twin.lift_bind_eq harenas
      (Paired.mapM_eq fun p => Context.Agree.axis_paired p shape.length) fun order => ?_
    refine (transposed_twin harenas ha order).bind fun w w' _ _ harenas hw => ?_
    exact output_twin agree harenas hw

theorem squeeze_twin :
    Twin S (ctx.Fails slots ctx') g g' (OutputsAlike S) (Rule.squeeze ctx ws g)
      (Rule.squeeze ctx' ws' g') := by
  refine Twin.lift_bind_eq harenas (agree.needInputs_paired 1) fun _ => ?_
  refine Twin.lift_bind harenas (entryAt_wires hws 0) fun a a' ha => ?_
  refine Twin.shapeOf_bind ha fun shape => ?_
  refine Twin.lift_bind_eq harenas (agree.attrOfKind?_paired _ _ _) fun requested => ?_
  refine Twin.lift_bind_eq harenas (Context.Agree.squeezedAxes_paired _ shape) fun dropped => ?_
  refine (reshaped_twin harenas ha _).bind fun w w' _ _ harenas hw => ?_
  exact output_twin agree harenas hw

theorem reduce_twin (hslot : slots 1) (mean : Bool) :
    Twin S (ctx.Fails slots ctx') g g' (OutputsAlike S) (Rule.reduce mean ctx ws g)
      (Rule.reduce mean ctx' ws' g') := by
  refine Twin.lift_bind_eq harenas (agree.needInputs_paired 2) fun _ => ?_
  refine Twin.lift_bind harenas (entryAt_wires hws 0) fun a a' ha => ?_
  refine Twin.shapeOf_bind ha fun shape => ?_
  refine Twin.lift_bind_eq harenas (agree.reductionAxes_paired hslot shape.length) fun axes => ?_
  refine Twin.lift_bind_eq harenas (agree.boolOr_paired _ _) fun keep => ?_
  refine Twin.emit_bind Context.fails_of_plain harenas (.cons ha .nil)
    fun total total' _ _ harenas htotal => ?_
  dsimp only
  split
  · refine Twin.lift_bind_eq harenas (elementsAlong_paired Context.fails_of_plain axes shape)
      fun count => ?_
    refine Twin.typeOf_bind htotal fun type => ?_
    refine Twin.emitConstant_bind harenas fun divisor divisor' hle hle' harenas hdivisor => ?_
    refine Twin.emit_bind Context.fails_of_plain harenas
      (.cons (S.wires_mono hle hle' htotal) (.cons hdivisor .nil)) fun r r' _ _ harenas hr => ?_
    refine Twin.ite_bind (reshaped_twin harenas hr _) (Twin.pure harenas hr)
      fun w w' _ _ harenas hw => ?_
    exact output_twin agree harenas hw
  · refine Twin.pure_bind ?_
    refine Twin.ite_bind (reshaped_twin harenas htotal _) (Twin.pure harenas htotal)
      fun w w' _ _ harenas hw => ?_
    exact output_twin agree harenas hw

/-- The axis is read on the slot behind the last operand but one, which is the last slot of a node
all of whose slots are operands. -/
theorem concat_twin (hslot : ∀ slot, slot + 1 = ws.length → slots slot) :
    Twin S (ctx.Fails slots ctx') g g' (OutputsAlike S) (Rule.concat ctx ws g)
      (Rule.concat ctx' ws' g') := by
  refine Twin.lift_bind_eq harenas (agree.needInputsAtLeast_paired 2) fun _ => ?_
  have hlength := hws.length_eq
  have hvalues : List.Forall₂ (S.wires g g') ws.dropLast ws'.dropLast := by
    rw [List.dropLast_eq_take, List.dropLast_eq_take, ← hlength]
    exact List.forall₂_take _ hws
  have hminus : Paired (ctx.Fails slots ctx') (fun a a' => a = a' ∧ a + 1 = ws.length)
      (minus ws.length 1) (minus ws'.length 1) := by
    rw [← hlength, minus]
    split
    · exact .ok ⟨rfl, by omega⟩
    · exact .error (.plain (.internal _))
  refine Twin.lift_bind harenas hminus ?_
  rintro last _ ⟨rfl, hlast⟩
  refine Twin.lift_bind_eq harenas (agree.axisValue_paired (hslot _ hlast)) fun axis => ?_
  refine Twin.lift_bind harenas (entryAt_wires hvalues 0) fun a a' ha => ?_
  refine Twin.shapeOf_bind ha fun shape => ?_
  refine Twin.lift_bind_eq harenas (Context.Agree.axis_paired axis _) fun place => ?_
  refine Twin.emit_bind Context.fails_of_plain harenas hvalues fun w w' _ _ harenas hw => ?_
  exact output_twin agree harenas hw

theorem split_twin (hslot : slots 0) :
    Twin S (ctx.Fails slots ctx') g g' (OutputsAlike S) (Rule.split ctx ws g)
      (Rule.split ctx' ws' g') := by
  refine Twin.lift_bind_eq harenas (agree.needInputs_paired 2) fun _ => ?_
  refine Twin.lift_bind_eq harenas (agree.attrOfKind_paired _ _ _) fun pieces => ?_
  dsimp only
  rw [← agree.outputs]
  split
  · exact Twin.throw_bind harenas (.refuse _ nofun)
  · refine Twin.lift_bind harenas (entryAt_wires hws 0) fun a a' ha => ?_
    refine Twin.shapeOf_bind ha fun shape => ?_
    refine Twin.lift_bind_eq harenas (agree.axisValue_paired hslot) fun value => ?_
    refine Twin.lift_bind_eq harenas (Context.Agree.axis_paired value _) fun axis => ?_
    refine Twin.lift_bind_eq harenas (entryAt_paired Context.fails_of_plain shape axis)
      fun length => ?_
    refine Twin.lift_bind_eq harenas (remainder_paired Context.fails_of_plain _ _) fun left => ?_
    split
    · exact Twin.throw_bind harenas (.refuse _ nofun)
    · refine Twin.lift_bind_eq harenas (quotient_paired Context.fails_of_plain _ _) fun size => ?_
      refine (Twin.mapM_wires harenas fun i hle hle' harenas => ?_).bind
        fun slices slices' _ _ harenas hslices => ?_
      · exact Twin.emit Context.fails_of_plain harenas (.cons (S.wires_mono hle hle' ha) .nil)
      · refine Twin.pure harenas ?_
        rw [OutputsAlike, List.forall₂_map_left_iff, List.forall₂_map_right_iff]
        exact hslices.imp fun _ _ hw => .some hw

/-! ### Dense layers and windows -/

theorem matMul_twin :
    Twin S (ctx.Fails slots ctx') g g' (OutputsAlike S) (Rule.matMul ctx ws g)
      (Rule.matMul ctx' ws' g') := by
  refine Twin.lift_bind_eq harenas (agree.needInputs_paired 2) fun _ => ?_
  refine Twin.lift_bind harenas (entryAt_wires hws 0) fun a a' ha => ?_
  refine Twin.lift_bind harenas (entryAt_wires hws 1) fun b b' hb => ?_
  refine needRank_bind harenas ha _ 2 ?_
  refine needRank_bind harenas hb _ 2 ?_
  refine Twin.lift_bind_eq harenas (agree.boolOr_paired _ _) fun first => ?_
  dsimp only
  refine Twin.ite_bind (transposed_twin harenas ha [1, 0]) (Twin.pure harenas ha)
    fun c c' hle hle' harenas hc => ?_
  have hb := S.wires_mono hle hle' hb
  refine Twin.lift_bind_eq harenas (agree.boolOr_paired _ _) fun second => ?_
  refine Twin.ite_bind (transposed_twin harenas hb [1, 0]) (Twin.pure harenas hb)
    fun d d' hle hle' harenas hd => ?_
  refine Twin.emit_bind Context.fails_of_plain harenas
    (.cons (S.wires_mono hle hle' hc) (.cons hd .nil)) fun w w' _ _ harenas hw => ?_
  exact output_twin agree harenas hw

theorem biasAdd_twin :
    Twin S (ctx.Fails slots ctx') g g' (OutputsAlike S) (Rule.biasAdd ctx ws g)
      (Rule.biasAdd ctx' ws' g') := by
  refine Twin.lift_bind_eq harenas (agree.needInputs_paired 2) fun _ => ?_
  refine Twin.lift_bind_eq harenas agree.dataFormat_paired fun format => ?_
  refine Twin.lift_bind harenas (entryAt_wires hws 0) fun value value' hvalue => ?_
  refine Twin.lift_bind harenas (entryAt_wires hws 1) fun bias bias' hbias => ?_
  refine Twin.shapeOf_bind hvalue fun shape => ?_
  dsimp only
  split
  · exact Twin.throw_bind harenas (.refuse _ nofun)
  · refine needRank_bind harenas hbias _ 1 ?_
    refine Twin.lift_bind_eq harenas (channelAxis_paired Context.fails_of_plain format _)
      fun channel => ?_
    refine Twin.shapeOf_bind hbias fun size => ?_
    refine Twin.lift_bind_eq harenas (entryAt_paired Context.fails_of_plain size 0)
      fun channels => ?_
    refine Twin.lift_bind_eq harenas (entryAt_paired Context.fails_of_plain shape _)
      fun wanted => ?_
    split
    · exact Twin.throw_bind harenas (.refuse _ nofun)
    · refine Twin.emit_bind Context.fails_of_plain harenas (.cons hbias .nil)
        fun stretched stretched' hle hle' harenas hstretched => ?_
      refine Twin.emit_bind Context.fails_of_plain harenas
        (.cons (S.wires_mono hle hle' hvalue) (.cons hstretched .nil)) fun w w' _ _ harenas hw => ?_
      exact output_twin agree harenas hw

theorem softmax_twin :
    Twin S (ctx.Fails slots ctx') g g' (OutputsAlike S) (Rule.softmax ctx ws g)
      (Rule.softmax ctx' ws' g') := by
  refine Twin.lift_bind_eq harenas (agree.needInputs_paired 1) fun _ => ?_
  refine Twin.lift_bind harenas (entryAt_wires hws 0) fun a a' ha => ?_
  refine Twin.shapeOf_bind ha fun shape => ?_
  dsimp only
  split
  · exact Twin.throw_bind harenas (.refuse _ nofun)
  · refine Twin.lift_bind_eq harenas (minus_paired Context.fails_of_plain _ 1) fun last => ?_
    refine Twin.emit_bind Context.fails_of_plain harenas (.cons ha .nil)
      fun w w' _ _ harenas hw => ?_
    exact output_twin agree harenas hw

omit agree hws in
theorem toChannelsFirst_twin (hx : S.wires g g' x x') (format : DataFormat) :
    Twin S (ctx.Fails slots ctx') g g' S.wires (toChannelsFirst ctx x format g)
      (toChannelsFirst ctx' x' format g') := by
  cases format with
  | channelsLast => exact transposed_twin harenas hx _
  | channelsFirst => exact Twin.pure harenas hx

omit agree hws in
theorem ofChannelsFirst_twin (hx : S.wires g g' x x') (format : DataFormat) :
    Twin S (ctx.Fails slots ctx') g g' S.wires (ofChannelsFirst ctx x format g)
      (ofChannelsFirst ctx' x' format g') := by
  cases format with
  | channelsLast => exact transposed_twin harenas hx _
  | channelsFirst => exact Twin.pure harenas hx

omit agree hws in
theorem spatialSizes_bind {α β : Type} {post : Graph → Graph → α → β → Prop}
    {f : List Nat → Emit α} {f' : List Nat → Emit β} (hx : S.wires g g' x x')
    (hf : ∀ sizes, Twin S (ctx.Fails slots ctx') g g' post (f sizes g) (f' sizes g')) :
    Twin S (ctx.Fails slots ctx') g g' post ((spatialSizes x >>= f) g)
      ((spatialSizes x' >>= f') g') := by
  unfold spatialSizes
  rw [bind_assoc, bind_assoc]
  refine Twin.shapeOf_bind hx fun shape => ?_
  exact Twin.lift_bind_eq harenas (entriesFrom_paired Context.fails_of_plain shape 2) hf

theorem convolve_twin :
    Twin S (ctx.Fails slots ctx') g g' (OutputsAlike S) (Rule.convolve ctx ws g)
      (Rule.convolve ctx' ws' g') := by
  refine Twin.lift_bind_eq harenas (agree.needInputs_paired 2) fun _ => ?_
  refine Twin.lift_bind_eq harenas agree.dataFormat_paired fun format => ?_
  refine Twin.lift_bind harenas (entryAt_wires hws 0) fun data data' hdata => ?_
  refine Twin.lift_bind harenas (entryAt_wires hws 1) fun filters filters' hfilters => ?_
  refine needRank_bind harenas hdata _ 4 ?_
  refine needRank_bind harenas hfilters _ 4 ?_
  refine Twin.lift_bind_eq harenas (agree.spatialEntries_paired _ format) fun strides => ?_
  dsimp only
  -- dilations are read only where the node has them, and both contexts agree on that
  rw [← agree.attr "dilations"]
  have hread : Twin S (ctx.Fails slots ctx') g g' (fun _ _ => Eq)
      ((liftM (spatialEntries ctx "dilations" format) : Emit (List Nat)) g)
      ((liftM (spatialEntries ctx' "dilations" format) : Emit (List Nat)) g') :=
    Twin.lift harenas (agree.spatialEntries_paired _ format) fun _ _ hab => hab
  refine Twin.ite_bind hread (Twin.pure harenas rfl) fun dilations _ hle hle' harenas hab => ?_
  subst hab
  have hdata := S.wires_mono hle hle' hdata
  have hfilters := S.wires_mono hle hle' hfilters
  refine Twin.lift_bind_eq harenas agree.paddingPolicy_paired fun policy => ?_
  refine (toChannelsFirst_twin harenas hdata format).bind
    fun moved moved' hle hle' harenas hmoved => ?_
  refine (transposed_twin harenas (S.wires_mono hle hle' hfilters) _).bind
    fun kernels kernels' hle hle' harenas hkernels => ?_
  have hmoved := S.wires_mono hle hle' hmoved
  refine spatialSizes_bind harenas hmoved fun image => ?_
  refine spatialSizes_bind harenas hkernels fun kernel => ?_
  refine Twin.lift_bind_eq harenas
    (paddingMakeDilated_paired Context.fails_of_plain policy image kernel strides dilations)
    fun padding => ?_
  refine Twin.emit_bind Context.fails_of_plain harenas (.cons hmoved (.cons hkernels .nil))
    fun result result' _ _ harenas hresult => ?_
  refine (ofChannelsFirst_twin harenas hresult format).bind fun w w' _ _ harenas hw => ?_
  exact output_twin agree harenas hw

theorem pool_twin (average : Bool) :
    Twin S (ctx.Fails slots ctx') g g' (OutputsAlike S) (Rule.pool average ctx ws g)
      (Rule.pool average ctx' ws' g') := by
  refine Twin.lift_bind_eq harenas (agree.needInputs_paired 1) fun _ => ?_
  refine Twin.lift_bind_eq harenas agree.dataFormat_paired fun format => ?_
  refine Twin.lift_bind harenas (entryAt_wires hws 0) fun a a' ha => ?_
  refine needRank_bind harenas ha _ 4 ?_
  refine Twin.lift_bind_eq harenas (agree.spatialEntries_paired _ format) fun window => ?_
  refine Twin.lift_bind_eq harenas (agree.spatialEntries_paired _ format) fun strides => ?_
  refine Twin.lift_bind_eq harenas agree.paddingPolicy_paired fun policy => ?_
  refine (toChannelsFirst_twin harenas ha format).bind fun moved moved' _ _ harenas hmoved => ?_
  refine spatialSizes_bind harenas hmoved fun image => ?_
  refine Twin.lift_bind_eq harenas
    (paddingMake_paired Context.fails_of_plain policy image window strides) fun padding => ?_
  refine Twin.emit_bind Context.fails_of_plain harenas (.cons hmoved .nil)
    fun result result' _ _ harenas hresult => ?_
  refine (ofChannelsFirst_twin harenas hresult format).bind fun w w' _ _ harenas hw => ?_
  exact output_twin agree harenas hw

end Rules

/-- **Every rule keeps what is alike.** In contexts that agree on the attributes, the numbers of
inputs and outputs and the values on the slots that the kind declares static, and on operands that
are alike, the rule of the kind gives outputs that are alike or fails alike. -/
theorem OpKind.rule_twin (kind : OpKind)
    (agree : ctx.Agree (kind.staticSlots.contains ctx.node ·) ctx') (harenas : S.arenas g g')
    (hws : List.Forall₂ (S.wires g g') ws ws')
    (hlength : ws.length = (kind.operandSlots.of ctx.node).length) :
    Twin S (ctx.Fails (kind.staticSlots.contains ctx.node ·) ctx') g g' (OutputsAlike S)
      (kind.rule ctx ws g) (kind.rule ctx' ws' g') := by
  cases kind with
  | arithmetic f => exact arithmetic_twin agree harenas hws f
  | floorDivide => exact floorDivide_twin agree harenas hws
  | floorModulo => exact floorModulo_twin agree harenas hws
  | addAll => exact addAll_twin agree harenas hws
  | apply f => exact apply_twin agree harenas hws f
  | reluSix => exact reluSix_twin agree harenas hws
  | square => exact square_twin agree harenas hws
  | cast => exact cast_twin agree harenas hws
  | identity => exact identity_twin agree harenas hws
  | nothing => exact nothing_twin agree harenas ws ws'
  | constant => exact constant_twin agree harenas ws ws'
  | reshape => exact reshape_twin agree harenas hws rfl
  | transpose => exact transpose_twin agree harenas hws rfl
  | squeeze => exact squeeze_twin agree harenas hws
  | reduce mean => exact reduce_twin agree harenas hws rfl mean
  -- the slot is counted from the operands here and from the inputs in the declaration
  | concat =>
    refine concat_twin agree harenas hws fun slot hslot => ?_
    rw [hlength] at hslot
    simpa [OpKind.staticSlots, StaticSlots.contains, OpKind.operandSlots, OperandSlots.of]
      using hslot
  | split => exact split_twin agree harenas hws rfl
  | matMul => exact matMul_twin agree harenas hws
  | biasAdd => exact biasAdd_twin agree harenas hws
  | convolve => exact convolve_twin agree harenas hws
  | pool average => exact pool_twin agree harenas hws average
  | softmax => exact softmax_twin agree harenas hws

end GraphLowering
