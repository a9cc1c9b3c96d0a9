import Mathlib
import GraphLowering.Proofs.Run

/-!
# How one run ends

A computation reads lists at positions, takes differences and divides, each time under a condition
that an earlier step has checked. To follow such conditions through a computation, this module says
how a single run ends: with a result of which something is known, or with a failure of a given kind.
A run that ends in this way, with failures that an input can cause, breaks no promise between the
parts of the library.

* `Error.Declared`, `Error.Refusal` — the failures that an input can cause, and those among them that
  are no mismatch of shapes.
* `Yields` — how a computation without an arena ends, and `Ends` — how a run that appends ends.
* `Yields.bind`, `Yields.mapM`, `Ends.bind`, `Ends.emit_bind`, … — how runs are put together.
* `entryAt_yields`, `minus_yields`, `quotient_yields` — the conditions of checked access.
* `infer_yields` — inference refuses an op with a mismatch, and never in another way.
-/

namespace GraphLowering

open Target

/-- A failure that an input can cause, as against a broken promise. -/
def Error.Declared : Error → Prop
  | .internal _ => False
  | _ => True

/-- A failure that an input can cause before any op is appended, as against a mismatch of shapes that
inference reports. -/
def Error.Refusal : Error → Prop
  | .internal _ | .mismatch _ => False
  | _ => True

theorem Error.Refusal.declared {e : Error} (h : e.Refusal) : e.Declared := by
  cases e with
  | internal cause => exact h
  | _ => trivial

/-! ### Computations without an arena -/

/-- A computation ends with a result that satisfies `post`, or with a failure in `fails`. -/
inductive Yields {α : Type} (fails : Error → Prop) (post : α → Prop) : Except Error α → Prop where
  | ok {a : α} (h : post a) : Yields fails post (.ok a)
  | error {e : Error} (h : fails e) : Yields fails post (.error e)

namespace Yields

variable {α β : Type} {fails : Error → Prop} {mid : α → Prop} {post : β → Prop}

theorem bind {x : Except Error α} {f : α → Except Error β} (hx : Yields fails mid x)
    (hf : ∀ a, mid a → Yields fails post (f a)) : Yields fails post (x >>= f) := by
  cases hx with
  | ok h => exact hf _ h
  | error h => exact .error h

theorem mono {x : Except Error α} {post : α → Prop} (hx : Yields fails mid x)
    (h : ∀ a, mid a → post a) : Yields fails post x := by
  cases hx with
  | ok ha => exact .ok (h _ ha)
  | error he => exact .error he

/-- The results of a list of computations have what each of them has. -/
theorem mapM {l : List α} {f : α → Except Error β} (h : ∀ a ∈ l, Yields fails post (f a)) :
    Yields fails (fun r => ∀ b ∈ r, post b) (l.mapM f) := by
  induction l with
  | nil => exact .ok (by simp)
  | cons a l ih =>
    rw [List.mapM_cons]
    refine (h a List.mem_cons_self).bind fun b hb => ?_
    refine (ih fun c hc => h c (List.mem_cons_of_mem a hc)).bind fun bs hbs => ?_
    exact .ok (List.forall_mem_cons.mpr ⟨hb, hbs⟩)

theorem mapM_trivial {l : List α} {f : α → Except Error β}
    (h : ∀ a ∈ l, Yields fails (fun _ => True) (f a)) :
    Yields fails (fun _ => True) (l.mapM f) :=
  (mapM h).mono fun _ _ => trivial

/-- A fold keeps what each of its steps keeps. -/
theorem foldlM {l : List α} {f : β → α → Except Error β}
    (h : ∀ b, ∀ a ∈ l, post b → Yields fails post (f b a)) {b : β} (hb : post b) :
    Yields fails post (l.foldlM f b) := by
  induction l generalizing b with
  | nil => exact .ok hb
  | cons a l ih =>
    rw [List.foldlM_cons]
    refine (h b a List.mem_cons_self hb).bind fun c hc => ?_
    exact ih (fun c d hd => h c d (List.mem_cons_of_mem a hd)) hc

theorem of_error {x : Except Error α} (hx : Yields fails mid x) {e : Error} (he : x = .error e) :
    fails e := by
  subst he
  cases hx with
  | error h => exact h

end Yields

/-! ### Checked access and arithmetic -/

section Checked

variable {α : Type} {fails : Error → Prop} {xs : List α} {a b i : Nat}

theorem entryAt_yields (h : i < xs.length) :
    Yields fails (fun x => xs[i]? = some x) (entryAt xs i) := by
  have hi : xs[i]? = some xs[i] := List.getElem?_eq_getElem h
  rw [entryAt_eq_ok hi]
  exact .ok hi

theorem entriesFrom_yields (h : i ≤ xs.length) :
    Yields fails (fun ys => ys = xs.drop i) (entriesFrom xs i) := by
  rw [entriesFrom, if_pos h]
  exact .ok rfl

theorem minus_yields (h : b ≤ a) : Yields fails (fun c => c = a - b) (minus a b) := by
  rw [minus_eq_ok h]
  exact .ok rfl

theorem quotient_yields (h : b ≠ 0) : Yields fails (fun c => c = a / b) (quotient a b) := by
  rw [quotient_eq_ok h]
  exact .ok rfl

theorem remainder_yields (h : b ≠ 0) : Yields fails (fun c => c = a % b) (remainder a b) := by
  rw [remainder_eq_ok h]
  exact .ok rfl

end Checked

/-! ### Inference

Each list that inference reads has been compared with the rank before, each divisor with zero. -/

section Inference

variable {fails : Error → Prop} (hmismatch : ∀ cause, fails (.mismatch cause))
include hmismatch

theorem oneOperand_yields (op : Op) (operands : List TensorType) :
    Yields fails (fun _ => True) (oneOperand op operands) := by
  unfold oneOperand
  split
  · exact .ok trivial
  · exact .error (hmismatch _)

theorem twoOperands_yields (op : Op) (operands : List TensorType) :
    Yields fails (fun _ => True) (twoOperands op operands) := by
  unfold twoOperands
  split
  · exact .ok trivial
  · exact .error (hmismatch _)

theorem checkAxes_yields (op : String) (axes : List Nat) (rank : Nat) :
    Yields fails (fun _ => True) (checkAxes op axes rank) := by
  unfold checkAxes
  split
  · exact .ok trivial
  · exact .error (hmismatch _)

theorem checkWindow_yields (op : String) (rank : Nat) (parameters : List (List Nat)) :
    Yields fails (fun _ => ∀ entries ∈ parameters, entries.length = rank)
      (checkWindow op rank parameters) := by
  unfold checkWindow
  split
  case isTrue h => exact .ok (by simpa using h)
  case isFalse => exact .error (hmismatch _)

theorem spatialParts_yields (op : String) (shape : Shape) :
    Yields fails (fun _ => True) (spatialParts op shape) := by
  unfold spatialParts
  split
  · exact .ok trivial
  · exact .error (hmismatch _)

theorem windowOutput_yields (op : String) (size window stride below above : Nat) :
    Yields fails (fun _ => True) (windowOutput op size window stride below above) := by
  unfold windowOutput
  dsimp only
  split
  case isTrue => exact .error (hmismatch _)
  case isFalse hfit =>
    refine (minus_yields (by omega)).bind fun free _ => ?_
    exact (quotient_yields (by omega)).bind fun steps _ => .ok trivial

theorem sliceAxis_yields {shape : Shape} {lower upper strides : List Nat} {axis : Nat}
    (haxis : axis < shape.length) (hlower : lower.length = shape.length)
    (hupper : upper.length = shape.length) (hstrides : strides.length = shape.length) :
    Yields fails (fun _ => True) (sliceAxis shape lower upper strides axis) := by
  refine (entryAt_yields haxis).bind fun size _ => ?_
  refine (entryAt_yields (by omega)).bind fun lo _ => ?_
  refine (entryAt_yields (by omega)).bind fun hi _ => ?_
  refine (entryAt_yields (by omega)).bind fun stride _ => ?_
  dsimp only
  split
  case isTrue => exact .error (hmismatch _)
  case isFalse hrange =>
    refine (minus_yields (by omega)).bind fun length _ => ?_
    refine (minus_yields (by omega)).bind fun raised _ => ?_
    exact (quotient_yields (by omega)).mono fun _ _ => trivial

/-- An operand that agrees with the first off the axis has an entry on it as well. -/
theorem concatSize_yields {head : TensorType} {axis : Nat} (haxis : axis < head.shape.length)
    (operands : List TensorType) :
    Yields fails (fun _ => True) (concatSize head axis operands) := by
  refine Yields.foldlM (fun total operand _ _ => ?_) trivial
  dsimp only
  split
  case isTrue => exact .error (hmismatch _)
  case isFalse hsame =>
    have hset : operand.shape.set axis 0 = head.shape.set axis 0 := by
      simp only [not_or, not_not] at hsame
      exact hsame.2
    have hlength : operand.shape.length = head.shape.length := by
      simpa using congrArg List.length hset
    exact (entryAt_yields (by omega)).bind fun size _ => .ok trivial

theorem convolutionSizes_yields {image kernel : List Nat} {w : ConvolutionWindow}
    (hkernel : kernel.length = image.length)
    (hwindow : ∀ entries ∈ [w.strides, w.dilations, w.below, w.above],
      entries.length = image.length) :
    Yields fails (fun _ => True) (convolutionSizes image kernel w) := by
  simp only [List.forall_mem_cons] at hwindow
  obtain ⟨hstrides, hdilations, hbelow, habove, -⟩ := hwindow
  refine Yields.mapM_trivial fun d hd => ?_
  have hlt : d < image.length := List.mem_range.mp hd
  refine (entryAt_yields hlt).bind fun size _ => ?_
  refine (entryAt_yields (by omega)).bind fun extent _ => ?_
  refine (entryAt_yields (by omega)).bind fun dilation _ => ?_
  refine (entryAt_yields (by omega)).bind fun stride _ => ?_
  refine (entryAt_yields (by omega)).bind fun below _ => ?_
  refine (entryAt_yields (by omega)).bind fun above _ => ?_
  exact windowOutput_yields hmismatch _ _ _ _ _ _

theorem poolSizes_yields (op : String) {image : List Nat} {w : PoolWindow}
    (hwindow : ∀ entries ∈ [w.window, w.strides, w.below, w.above],
      entries.length = image.length) :
    Yields fails (fun _ => True) (poolSizes op image w) := by
  simp only [List.forall_mem_cons] at hwindow
  obtain ⟨hextent, hstrides, hbelow, habove, -⟩ := hwindow
  refine Yields.mapM_trivial fun d hd => ?_
  have hlt : d < image.length := List.mem_range.mp hd
  refine (entryAt_yields hlt).bind fun size _ => ?_
  refine (entryAt_yields (by omega)).bind fun extent _ => ?_
  refine (entryAt_yields (by omega)).bind fun stride _ => ?_
  refine (entryAt_yields (by omega)).bind fun below _ => ?_
  refine (entryAt_yields (by omega)).bind fun above _ => ?_
  exact windowOutput_yields hmismatch _ _ _ _ _ _

theorem inferConvolution_yields (w : ConvolutionWindow) (data filters : TensorType) :
    Yields fails (fun _ => True) (inferConvolution w data filters) := by
  refine (spatialParts_yields hmismatch _ _).bind fun (batch, channels, image) _ => ?_
  dsimp only
  split
  case h_1 count depth kernel _ =>
    split
    case isTrue => exact .error (hmismatch _)
    case isFalse hfit =>
      split
      case isTrue => exact .error (hmismatch _)
      case isFalse =>
        refine (checkWindow_yields hmismatch _ _ _).bind fun _ hwindow => ?_
        refine (convolutionSizes_yields hmismatch (by omega) hwindow).bind fun sizes _ => ?_
        exact .ok trivial
  case h_2 => exact .error (hmismatch _)

theorem inferPool_yields (op : String) (w : PoolWindow) (data : TensorType) :
    Yields fails (fun _ => True) (inferPool op w data) := by
  refine (spatialParts_yields hmismatch _ _).bind fun (batch, channels, image) _ => ?_
  refine (checkWindow_yields hmismatch _ _ _).bind fun _ hwindow => ?_
  exact (poolSizes_yields hmismatch op hwindow).bind fun sizes _ => .ok trivial

theorem inferDot_yields (a b : TensorType) : Yields fails (fun _ => True) (inferDot a b) := by
  unfold inferDot
  split
  · exact .error (hmismatch _)
  · split
    · split
      · exact .error (hmismatch _)
      · exact .ok trivial
    · exact .error (hmismatch _)

theorem inferConcat_yields (axis : Nat) (operands : List TensorType) :
    Yields fails (fun _ => True) (inferConcat axis operands) := by
  unfold inferConcat
  split
  case h_1 => exact .error (hmismatch _)
  case h_2 head rest =>
    dsimp only
    split
    case isTrue => exact .error (hmismatch _)
    case isFalse haxis =>
      exact (concatSize_yields hmismatch (by omega) _).bind fun size _ => .ok trivial

/-- Inference gives a type or a mismatch. -/
theorem infer_yields (op : Op) (operands : List TensorType) :
    Yields fails (fun _ => True) (op.infer operands) := by
  cases op with
  | parameter index => exact .error (hmismatch _)
  | constant value => exact .error (hmismatch _)
  | binary f =>
    refine (twoOperands_yields hmismatch _ _).bind fun (a, b) _ => ?_
    dsimp only
    split
    · exact .ok trivial
    · exact .error (hmismatch _)
  | unary f => exact oneOperand_yields hmismatch _ _
  | convert element => exact (oneOperand_yields hmismatch _ _).bind fun a _ => .ok trivial
  | dot => exact (twoOperands_yields hmismatch _ _).bind fun (a, b) _ => inferDot_yields hmismatch a b
  | broadcast shape axes =>
    refine (oneOperand_yields hmismatch _ _).bind fun a _ => ?_
    refine (checkAxes_yields hmismatch _ _ _).bind fun _ _ => ?_
    dsimp only
    split
    · exact .error (hmismatch _)
    · exact .ok trivial
  | reshape order shape =>
    refine (oneOperand_yields hmismatch _ _).bind fun a _ => ?_
    dsimp only
    split
    · exact .error (hmismatch _)
    · split
      · exact .error (hmismatch _)
      · exact .ok trivial
  | slice lower upper strides =>
    refine (oneOperand_yields hmismatch _ _).bind fun a _ => ?_
    dsimp only
    split
    case isTrue => exact .error (hmismatch _)
    case isFalse hrank =>
      simp only [not_or, not_not] at hrank
      obtain ⟨hlower, hupper, hstrides⟩ := hrank
      refine (Yields.mapM_trivial fun axis haxis => ?_).bind fun sizes _ => .ok trivial
      exact sliceAxis_yields hmismatch (List.mem_range.mp haxis) hlower hupper hstrides
  | concat axis => exact inferConcat_yields hmismatch axis operands
  | sum axes =>
    refine (oneOperand_yields hmismatch _ _).bind fun a _ => ?_
    exact (checkAxes_yields hmismatch _ _ _).bind fun _ _ => .ok trivial
  | softmax axes =>
    refine (oneOperand_yields hmismatch _ _).bind fun a _ => ?_
    exact (checkAxes_yields hmismatch _ _ _).bind fun _ _ => .ok trivial
  | convolution w =>
    refine (twoOperands_yields hmismatch _ _).bind fun (data, filters) _ => ?_
    exact inferConvolution_yields hmismatch w data filters
  | maxPool w =>
    exact (oneOperand_yields hmismatch _ _).bind fun data _ => inferPool_yields hmismatch _ w data
  | avgPool w counted =>
    exact (oneOperand_yields hmismatch _ _).bind fun data _ => inferPool_yields hmismatch _ w data

end Inference

/-! ### Runs that append -/

/-- A run from arena `g` only appends to it, and ends with a result that satisfies `post` or with a
failure in `fails`, each in the arena that it leaves. -/
inductive Ends {α : Type} (fails : Graph → Error → Prop) (g : Graph) (post : Graph → α → Prop) :
    EStateM.Result Error Graph α → Prop where
  | ok {a : α} {h : Graph} (hle : g ≤ h) (hpost : post h a) : Ends fails g post (.ok a h)
  | error {e : Error} {h : Graph} (hle : g ≤ h) (hfails : fails h e) :
    Ends fails g post (.error e h)

namespace Ends

variable {α β : Type} {fails : Graph → Error → Prop} {g : Graph} {mid : Graph → α → Prop}
  {post : Graph → β → Prop}

/-- A run from a later arena is a run from an earlier one. -/
theorem of_le {h : Graph} {r : EStateM.Result Error Graph β} (hle : g ≤ h)
    (hr : Ends fails h post r) : Ends fails g post r := by
  cases hr with
  | ok hl hpost => exact .ok (hle.trans hl) hpost
  | error hl hfails => exact .error (hle.trans hl) hfails

theorem bind {m : Emit α} {f : α → Emit β} (hm : Ends fails g mid (m g))
    (hf : ∀ {h} a, g ≤ h → mid h a → Ends fails h post (f a h)) :
    Ends fails g post ((m >>= f) g) := by
  cases hr : m g with
  | ok a h =>
    rw [hr] at hm
    cases hm with
    | ok hle hmid =>
      rw [Step.bind_of_ok hr]
      exact (hf a hle hmid).of_le hle
  | error e h =>
    rw [hr] at hm
    cases hm with
    | error hle hfails =>
      rw [Step.bind_of_error hr]
      exact .error hle hfails

theorem mono {post' : Graph → β → Prop} {r : EStateM.Result Error Graph β}
    (hr : Ends fails g post r) (hpost : ∀ {h} b, g ≤ h → post h b → post' h b) :
    Ends fails g post' r := by
  cases hr with
  | ok hle hb => exact .ok hle (hpost _ hle hb)
  | error hle hfails => exact .error hle hfails

theorem pure {b : β} (hb : post g b) : Ends fails g post ((Pure.pure b : Emit β) g) :=
  .ok le_rfl hb

theorem pure_bind {a : α} {f : α → Emit β} (hf : Ends fails g post (f a g)) :
    Ends fails g post (((Pure.pure a : Emit α) >>= f) g) := by
  rw [Step.bind_of_ok (show (Pure.pure a : Emit α) g = .ok a g from rfl)]
  exact hf

/-- One of two steps before the same continuation. -/
theorem ite_bind {c : Prop} [Decidable c] {m n : Emit α} {f : α → Emit β}
    (hm : c → Ends fails g mid (m g)) (hn : ¬ c → Ends fails g mid (n g))
    (hf : ∀ {h} a, g ≤ h → mid h a → Ends fails h post (f a h)) :
    Ends fails g post ((if c then m >>= f else n >>= f) g) := by
  split
  case isTrue hc => exact (hm hc).bind hf
  case isFalse hc => exact (hn hc).bind hf

theorem throw {e : Error} (he : fails g e) : Ends fails g post ((throw e : Emit β) g) :=
  .error le_rfl he

theorem throw_bind {e : Error} {f : α → Emit β} (he : fails g e) :
    Ends fails g post (((MonadExcept.throw e : Emit α) >>= f) g) := by
  rw [Step.bind_of_error (Step.throw_apply e g)]
  exact .error le_rfl he

theorem lift {x : Except Error β} {result : β → Prop} (hx : Yields (fails g) result x)
    (hpost : ∀ b, result b → post g b) : Ends fails g post ((liftM x : Emit β) g) := by
  cases hx with
  | ok h => exact .ok le_rfl (hpost _ h)
  | error h => exact .error le_rfl h

/-- A computation without an arena leaves the arena as it is. -/
theorem lift_bind {x : Except Error α} {result : α → Prop} {f : α → Emit β}
    (hx : Yields (fails g) result x) (hf : ∀ a, result a → Ends fails g post (f a g)) :
    Ends fails g post (((liftM x : Emit α) >>= f) g) := by
  cases hx with
  | ok h =>
    rw [Step.bind_of_ok (show (liftM (Except.ok _ : Except Error α) : Emit α) g = _ from rfl)]
    exact hf _ h
  | error h => exact .error le_rfl h

/-- A wire of the arena carries a tensor of a type. -/
theorem typeOf_bind {w : Wire} {type : TensorType} {f : TensorType → Emit β}
    (hw : g.type? w = some type) (hf : Ends fails g post (f type g)) :
    Ends fails g post ((typeOf w >>= f) g) := by
  have htype : typeOf w g = .ok type g := by
    rw [typeOf, Step.bind_of_ok (Step.get_apply g), hw]
    rfl
  rw [Step.bind_of_ok htype]
  exact hf

theorem shapeOf_bind {w : Wire} {type : TensorType} {f : Shape → Emit β}
    (hw : g.type? w = some type) (hf : Ends fails g post (f type.shape g)) :
    Ends fails g post ((shapeOf w >>= f) g) := by
  rw [shapeOf, bind_assoc]
  exact typeOf_bind hw (pure_bind hf)

/-- An op that fits its operands is appended with the type that is inferred for it. -/
theorem emit_fitting {op : Op} {ws : List Wire} {type : TensorType}
    (hinfer : g.infer op ws = .ok type) :
    Ends fails g (fun h w => h.type? w = some type) (Target.emit op ws g) := by
  rw [emit_eq, hinfer]
  exact .ok (g.le_push op ws type) (g.type?_push_self op ws type)

/-- An op is appended with the type that is inferred for it, or refused with a mismatch. -/
theorem emit_bind (hmismatch : ∀ cause, fails g (.mismatch cause)) {op : Op} {ws : List Wire}
    {f : Wire → Emit β}
    (hf : ∀ {h} w type, g ≤ h → h.type? w = some type → g.infer op ws = .ok type →
      Ends fails h post (f w h)) :
    Ends fails g post ((Target.emit op ws >>= f) g) := by
  have hinfer : Yields (fails g) (fun _ => True) (g.infer op ws) := by
    unfold Graph.infer
    split
    · exact .error (hmismatch _)
    · exact infer_yields hmismatch op _
  cases hr : g.infer op ws with
  | ok type => exact (emit_fitting hr).bind fun w hle hw => hf w type hle hw hr
  | error e =>
    have hemit : emit op ws g = .error e g := by rw [emit_eq, hr]
    rw [Step.bind_of_error hemit]
    exact .error le_rfl (hinfer.of_error hr)

theorem emitConstant_bind {value : Tensor} {f : Wire → Emit β}
    (hf : ∀ {h} w, g ≤ h → h.type? w = some ⟨value.type, value.shape⟩ →
      Ends fails h post (f w h)) :
    Ends fails g post ((emitConstant value >>= f) g) := by
  have hle := g.le_push (.constant value) [] ⟨value.type, value.shape⟩
  exact (hf _ hle (g.type?_push_self ..)).of_le hle

theorem emit (hmismatch : ∀ cause, fails g (.mismatch cause)) (op : Op) (ws : List Wire) :
    Ends fails g (fun h w => ∃ type, h.type? w = some type ∧ g.infer op ws = .ok type)
      (Target.emit op ws g) := by
  rw [← bind_pure (Target.emit op ws)]
  exact emit_bind hmismatch fun w type _ hw hinfer => pure ⟨type, hw, hinfer⟩

/-- A fold of steps that go from wire to wire. -/
theorem foldlM_wires {l : List Wire} {f : Wire → Wire → Emit Wire}
    (step : ∀ {h} a w, h.Has a → Ends fails h Graph.Has (f a w h)) :
    ∀ {g a}, g.Has a → Ends fails g Graph.Has (l.foldlM f a g) := by
  induction l with
  | nil =>
    intro g a ha
    exact pure ha
  | cons w l ih =>
    intro g a ha
    rw [List.foldlM_cons]
    exact (step a w ha).bind fun b _ hb => ih hb

/-- A list of steps has one result for each of them. -/
theorem mapM_length {ι : Type} {l : List ι} {f : ι → Emit Wire} :
    ∀ {g}, (∀ {h}, ∀ i ∈ l, g ≤ h → Ends fails h (fun _ _ => True) (f i h)) →
      Ends fails g (fun _ ws => ws.length = l.length) (l.mapM f g) := by
  induction l with
  | nil =>
    intro g _
    exact pure rfl
  | cons i l ih =>
    intro g step
    rw [List.mapM_cons]
    refine (step i List.mem_cons_self le_rfl).bind fun w hle _ => ?_
    refine (ih fun j hj hle' => step j (List.mem_cons_of_mem i hj) (hle.trans hle')).bind
      fun ws _ hws => ?_
    exact pure (by simp [hws])

end Ends

end GraphLowering
