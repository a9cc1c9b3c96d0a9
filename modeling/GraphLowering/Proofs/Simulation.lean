import Mathlib
import GraphLowering.Target.Graph
import GraphLowering.Proofs.Step

/-!
# Two runs side by side

A lowering step sees the arena only through the wires it is given: it asks for the type on a wire
and appends nodes that read wires. Two runs of such a step on two arenas therefore stay alike when
they start alike. What "alike" means is a `Simulation`: a relation between arenas and a relation
between wires of the two arenas that appending the same op keeps. Different simulations give
different facts about the same steps, so the steps are looked at once.

* `g ≤ h` — arena `h` has all nodes of arena `g`, at the same places.
* `Graph.ofParameters` — arenas of parameters, on which runs are tried out.
* `Graph.infer`, `emit_eq` — the type of an op on wires of an arena, and what appending it does.
* `Simulation` — arenas and wires that are alike, with the laws that steps rely on.
* `Paired` — two computations without an arena that succeed alike or fail alike.
* `Twin` — two runs that only append, and succeed alike or fail alike.
* `Twin.bind`, `Twin.lift_bind`, `Twin.typeOf_bind`, `Twin.emit_bind`, … — how runs are put
  together.
-/

namespace GraphLowering

open Target

/-! ### Arenas that grow -/

namespace Target.Graph

instance : LE Graph :=
  ⟨fun g h => ∀ (w : Wire) (v : Node), g.nodes[w]? = some v → h.nodes[w]? = some v⟩

instance : Preorder Graph where
  le_refl _ _ _ hv := hv
  le_trans _ _ _ hgh hhk w v hv := hhk w v (hgh w v hv)

variable {g h : Graph} {w : Wire}

theorem le_push (g : Graph) (op : Op) (ws : List Wire) (type : TensorType) :
    g ≤ g.push op ws type := by
  intro w v hv
  have hlt : w < g.nodes.size := (Array.getElem?_eq_some_iff.mp hv).1
  rw [push, Array.getElem?_push, if_neg (Nat.ne_of_lt hlt)]
  exact hv

theorem node_push_self (g : Graph) (op : Op) (ws : List Wire) (type : TensorType) :
    (g.push op ws type).nodes[g.size]? = some ⟨g.size, op, ws, type⟩ := by
  simp [push, size]

theorem type?_mono {type : TensorType} (hle : g ≤ h) (hw : g.type? w = some type) :
    h.type? w = some type := by
  obtain ⟨v, hv, rfl⟩ := Option.map_eq_some_iff.mp hw
  rw [type?, hle w v hv]
  rfl

/-- An arena that holds one parameter for each of the given types, in their order. -/
def ofParameters (types : List TensorType) : Graph :=
  types.foldl (fun g type => g.push (.parameter g.size) [] type) {}

/-- The type that an op has on wires of the arena. -/
def infer (g : Graph) (op : Op) (ws : List Wire) : Except Error TensorType :=
  match g.types ws with
  | .error w => .error (.mismatch (.noNode op.name w))
  | .ok operands => op.infer operands

theorem infer_of_types {op : Op} {ws : List Wire} {operands : List TensorType}
    (htypes : g.types ws = .ok operands) : g.infer op ws = op.infer operands := by
  rw [infer, htypes]

end Target.Graph

/-- An op is appended with the type that is inferred for it, or the arena stays as it is. -/
theorem Target.emit_eq (g : Graph) (op : Op) (ws : List Wire) :
    emit op ws g =
      match g.infer op ws with
      | .ok type => .ok g.size (g.push op ws type)
      | .error e => .error e g := by
  rw [emit, Step.bind_of_ok (Step.get_apply g)]
  cases htypes : g.types ws with
  | error w =>
    rw [Graph.infer, htypes]
    rfl
  | ok operands =>
    rw [Graph.infer_of_types htypes]
    cases hinfer : op.infer operands with
    | error e =>
      exact Step.bind_of_error (show (liftM (op.infer operands) : Emit _) g = _ by rw [hinfer]; rfl)
    | ok type =>
      exact Step.bind_of_ok (show (liftM (op.infer operands) : Emit _) g = _ by rw [hinfer]; rfl)

/-! ### Simulations -/

/-- A type that an appended node may have: that of a constant, or the one inferred. -/
inductive Fitting (op : Op) (operands : List TensorType) (type : TensorType) : Prop where
  | constant (value : Tensor) (hop : op = .constant value) (hnone : operands = [])
      (htype : type = ⟨value.type, value.shape⟩)
  | inferred (h : op.infer operands = .ok type)

/-- Arenas and wires that are alike. Wires stay alike while the arenas grow and carry tensors of one
type, and appending one op on wires that are alike gives arenas and wires that are alike. -/
structure Simulation where
  arenas : Graph → Graph → Prop
  wires : Graph → Graph → Wire → Wire → Prop
  wires_mono : ∀ {g g' h h' : Graph} {w w' : Wire}, g ≤ h → g' ≤ h' → wires g g' w w' →
    wires h h' w w'
  wires_type : ∀ {g g' : Graph} {w w' : Wire}, wires g g' w w' →
    ∃ type, g.type? w = some type ∧ g'.type? w' = some type
  append : ∀ {g g' : Graph} {op : Op} {ws ws' : List Wire} {operands : List TensorType}
    {type : TensorType}, arenas g g' → List.Forall₂ (wires g g') ws ws' →
    g.types ws = .ok operands → g'.types ws' = .ok operands → Fitting op operands type →
    arenas (g.push op ws type) (g'.push op ws' type) ∧
      wires (g.push op ws type) (g'.push op ws' type) g.size g'.size

theorem Simulation.types (S : Simulation) {g g' : Graph} {ws ws' : List Wire}
    (hws : List.Forall₂ (S.wires g g') ws ws') :
    ∃ operands, g.types ws = .ok operands ∧ g'.types ws' = .ok operands := by
  induction hws with
  | nil => exact ⟨[], rfl, rfl⟩
  | cons hw _ ih =>
    obtain ⟨type, ht, ht'⟩ := S.wires_type hw
    obtain ⟨operands, ho, ho'⟩ := ih
    refine ⟨type :: operands, ?_, ?_⟩
    · rw [Graph.types, ht, ho]
      rfl
    · rw [Graph.types, ht', ho']
      rfl

/-! ### Computations without an arena -/

/-- Failures that do not say for which node a rule was asked. -/
inductive Error.Plain : Error → Prop where
  | mismatch (cause : Mismatch) : Plain (.mismatch cause)
  | invalid (cause : Invalid) : Plain (.invalid cause)
  | internal (fault : Fault) : Plain (.internal fault)

/-- Two computations that succeed with results that are alike, or fail alike. -/
inductive Paired {α β : Type} (fails : Error → Error → Prop) (post : α → β → Prop) :
    Except Error α → Except Error β → Prop where
  | ok {a : α} {b : β} (h : post a b) : Paired fails post (.ok a) (.ok b)
  | error {e e' : Error} (h : fails e e') : Paired fails post (.error e) (.error e')

namespace Paired

variable {α β γ δ : Type} {fails : Error → Error → Prop} {mid : α → β → Prop} {post : γ → δ → Prop}

theorem bind {x : Except Error α} {x' : Except Error β} {f : α → Except Error γ}
    {f' : β → Except Error δ} (hx : Paired fails mid x x')
    (hf : ∀ a b, mid a b → Paired fails post (f a) (f' b)) :
    Paired fails post (x >>= f) (x' >>= f') := by
  cases hx with
  | ok h => exact hf _ _ h
  | error h => exact .error h

/-- The same results are handed on to both continuations. -/
theorem bind_eq {x x' : Except Error α} {f : α → Except Error γ} {f' : α → Except Error δ}
    (hx : Paired fails Eq x x') (hf : ∀ a, Paired fails post (f a) (f' a)) :
    Paired fails post (x >>= f) (x' >>= f') :=
  hx.bind fun a _ hab => hab ▸ hf a

theorem map {x : Except Error α} {x' : Except Error β} {f : α → γ} {f' : β → δ}
    (hx : Paired fails mid x x') (hf : ∀ a b, mid a b → post (f a) (f' b)) :
    Paired fails post (x.map f) (x'.map f') := by
  cases hx with
  | ok h => exact .ok (hf _ _ h)
  | error h => exact .error h

theorem mapM {l : List α} {l' : List β} {f : α → Except Error γ} {f' : β → Except Error δ}
    (hl : List.Forall₂ mid l l') (hf : ∀ a b, mid a b → Paired fails post (f a) (f' b)) :
    Paired fails (List.Forall₂ post) (l.mapM f) (l'.mapM f') := by
  induction hl with
  | nil => exact .ok .nil
  | cons h _ ih =>
    rw [List.mapM_cons, List.mapM_cons]
    exact (hf _ _ h).bind fun a b hab => ih.bind fun as bs habs => .ok (.cons hab habs)

theorem mapM_eq {l : List α} {f f' : α → Except Error γ}
    (hf : ∀ a, Paired fails Eq (f a) (f' a)) : Paired fails Eq (l.mapM f) (l.mapM f') := by
  have h : Paired fails (List.Forall₂ Eq) (l.mapM f) (l.mapM f') :=
    mapM (List.forall₂_eq_eq_eq.symm ▸ rfl : List.Forall₂ Eq l l) fun a _ hab => hab ▸ hf a
  rwa [List.forall₂_eq_eq_eq] at h

theorem foldlM_eq {l : List α} {f f' : γ → α → Except Error γ}
    (hf : ∀ c a, Paired fails Eq (f c a) (f' c a)) {c : γ} :
    Paired fails Eq (l.foldlM f c) (l.foldlM f' c) := by
  induction l generalizing c with
  | nil => exact .ok rfl
  | cons a l ih =>
    rw [List.foldlM_cons, List.foldlM_cons]
    exact (hf c a).bind_eq fun c' => ih

/-- A computation is alike to itself if all its failures are alike to themselves. -/
theorem refl {x : Except Error α} (hx : ∀ e, x = .error e → fails e e) : Paired fails Eq x x := by
  cases x with
  | ok a => exact .ok rfl
  | error e => exact .error (hx e rfl)

/-- As `bind`, with the result of the first computation in hand. -/
theorem bind_run {x : Except Error α} {x' : Except Error β} {f : α → Except Error γ}
    {f' : β → Except Error δ} (hx : Paired fails mid x x')
    (hf : ∀ a b, x = .ok a → mid a b → Paired fails post (f a) (f' b)) :
    Paired fails post (x >>= f) (x' >>= f') := by
  cases hx with
  | ok h => exact hf _ _ rfl h
  | error h => exact .error h

/-- Folds whose steps are alike in every state that the first fold meets are alike. -/
theorem foldlM_run {f : γ → α → Except Error γ} {f' : δ → α → Except Error δ} {l : List α}
    {c : γ} {d : δ} (hcd : post c d)
    (step : ∀ done x rest s t, l = done ++ x :: rest → done.foldlM f c = .ok s → post s t →
      Paired fails post (f s x) (f' t x)) :
    Paired fails post (l.foldlM f c) (l.foldlM f' d) := by
  induction l generalizing c d with
  | nil => exact .ok hcd
  | cons x l ih =>
    rw [List.foldlM_cons, List.foldlM_cons]
    apply (step [] x l c d rfl rfl hcd).bind_run
    intro s t hx hst
    apply ih hst
    intro done y rest s' t' hl hrun
    apply step (x :: done) y rest s' t'
    · rw [hl]
      rfl
    · rw [List.foldlM_cons, hx]
      exact hrun

/-- The second computation gives what the first one gives. -/
theorem eq_ok_iff {x x' : Except Error α} (h : Paired fails Eq x x') {a : α} :
    x' = .ok a ↔ x = .ok a := by
  cases h with
  | ok h => rw [h]
  | error _ => exact ⟨nofun, nofun⟩

theorem exists_error {x : Except Error γ} {x' : Except Error δ} (h : Paired fails post x x')
    {e : Error} (he : x = .error e) : ∃ e', x' = .error e' ∧ fails e e' := by
  cases h with
  | ok _ => cases he
  | error h =>
    obtain rfl := Except.error.inj he
    exact ⟨_, rfl, h⟩

theorem exists_ok_iff {x : Except Error γ} {x' : Except Error δ}
    (h : Paired fails post x x') : (∃ c, x = .ok c) ↔ ∃ d, x' = .ok d := by
  cases h with
  | ok _ => exact ⟨fun _ => ⟨_, rfl⟩, fun _ => ⟨_, rfl⟩⟩
  | error _ => exact ⟨nofun, nofun⟩

end Paired

/-! ### Inference

Inference is the same computation on both sides, and all its failures are plain. -/

section Inference

variable {fails : Error → Error → Prop} (hplain : ∀ e, e.Plain → fails e e)
include hplain

theorem entryAt_paired {α : Type} (xs : List α) (i : Nat) :
    Paired fails Eq (entryAt xs i) (entryAt xs i) := by
  unfold entryAt
  split
  · exact .ok rfl
  · exact .error (hplain _ (.internal _))

theorem minus_paired (a b : Nat) : Paired fails Eq (minus a b) (minus a b) := by
  unfold minus
  split
  · exact .ok rfl
  · exact .error (hplain _ (.internal _))

theorem quotient_paired (a b : Nat) : Paired fails Eq (quotient a b) (quotient a b) := by
  unfold quotient
  split
  · exact .error (hplain _ (.internal _))
  · exact .ok rfl

theorem remainder_paired (a b : Nat) : Paired fails Eq (remainder a b) (remainder a b) := by
  unfold remainder
  split
  · exact .error (hplain _ (.internal _))
  · exact .ok rfl

theorem oneOperand_paired (op : Op) (operands : List TensorType) :
    Paired fails Eq (oneOperand op operands) (oneOperand op operands) := by
  unfold oneOperand
  split
  · exact .ok rfl
  · exact .error (hplain _ (.mismatch _))

theorem twoOperands_paired (op : Op) (operands : List TensorType) :
    Paired fails Eq (twoOperands op operands) (twoOperands op operands) := by
  unfold twoOperands
  split
  · exact .ok rfl
  · exact .error (hplain _ (.mismatch _))

theorem checkAxes_paired (op : String) (axes : List Nat) (rank : Nat) :
    Paired fails Eq (checkAxes op axes rank) (checkAxes op axes rank) := by
  unfold checkAxes
  split
  · exact .ok rfl
  · exact .error (hplain _ (.mismatch _))

theorem checkWindow_paired (op : String) (rank : Nat) (parameters : List (List Nat)) :
    Paired fails Eq (checkWindow op rank parameters) (checkWindow op rank parameters) := by
  unfold checkWindow
  split
  · exact .ok rfl
  · exact .error (hplain _ (.mismatch _))

theorem spatialParts_paired (op : String) (shape : Shape) :
    Paired fails Eq (spatialParts op shape) (spatialParts op shape) := by
  unfold spatialParts
  split
  · exact .ok rfl
  · exact .error (hplain _ (.mismatch _))

theorem windowOutput_paired (op : String) (size window stride below above : Nat) :
    Paired fails Eq (windowOutput op size window stride below above)
      (windowOutput op size window stride below above) := by
  unfold windowOutput
  dsimp only
  split
  · exact .error (hplain _ (.mismatch _))
  · refine (minus_paired hplain _ _).bind_eq fun free => ?_
    exact (quotient_paired hplain _ _).bind_eq fun steps => .ok rfl

theorem sliceAxis_paired (shape : Shape) (lower upper strides : List Nat) (axis : Nat) :
    Paired fails Eq (sliceAxis shape lower upper strides axis)
      (sliceAxis shape lower upper strides axis) := by
  unfold sliceAxis
  refine (entryAt_paired hplain shape axis).bind_eq fun size => ?_
  refine (entryAt_paired hplain lower axis).bind_eq fun lo => ?_
  refine (entryAt_paired hplain upper axis).bind_eq fun hi => ?_
  refine (entryAt_paired hplain strides axis).bind_eq fun stride => ?_
  dsimp only
  split
  · exact .error (hplain _ (.mismatch _))
  · refine (minus_paired hplain _ _).bind_eq fun length => ?_
    exact (minus_paired hplain _ _).bind_eq fun _ => quotient_paired hplain _ _

theorem concatSize_paired (head : TensorType) (axis : Nat) (operands : List TensorType) :
    Paired fails Eq (concatSize head axis operands) (concatSize head axis operands) := by
  refine Paired.foldlM_eq fun total operand => ?_
  dsimp only
  split
  · exact .error (hplain _ (.mismatch _))
  · exact (entryAt_paired hplain operand.shape axis).bind_eq fun size => .ok rfl

theorem convolutionSizes_paired (image kernel : List Nat) (w : ConvolutionWindow) :
    Paired fails Eq (convolutionSizes image kernel w) (convolutionSizes image kernel w) := by
  refine Paired.mapM_eq fun d => ?_
  refine (entryAt_paired hplain image d).bind_eq fun size => ?_
  refine (entryAt_paired hplain kernel d).bind_eq fun extent => ?_
  refine (entryAt_paired hplain w.dilations d).bind_eq fun dilation => ?_
  refine (entryAt_paired hplain w.strides d).bind_eq fun stride => ?_
  refine (entryAt_paired hplain w.below d).bind_eq fun below => ?_
  refine (entryAt_paired hplain w.above d).bind_eq fun above => ?_
  exact windowOutput_paired hplain _ _ _ _ _ _

theorem poolSizes_paired (op : String) (image : List Nat) (w : PoolWindow) :
    Paired fails Eq (poolSizes op image w) (poolSizes op image w) := by
  refine Paired.mapM_eq fun d => ?_
  refine (entryAt_paired hplain image d).bind_eq fun size => ?_
  refine (entryAt_paired hplain w.window d).bind_eq fun extent => ?_
  refine (entryAt_paired hplain w.strides d).bind_eq fun stride => ?_
  refine (entryAt_paired hplain w.below d).bind_eq fun below => ?_
  refine (entryAt_paired hplain w.above d).bind_eq fun above => ?_
  exact windowOutput_paired hplain _ _ _ _ _ _

theorem inferConvolution_paired (w : ConvolutionWindow) (data filters : TensorType) :
    Paired fails Eq (inferConvolution w data filters) (inferConvolution w data filters) := by
  unfold inferConvolution
  refine (spatialParts_paired hplain _ data.shape).bind_eq fun parts => ?_
  dsimp only
  split
  · split
    · exact .error (hplain _ (.mismatch _))
    · split
      · exact .error (hplain _ (.mismatch _))
      · refine (checkWindow_paired hplain _ _ _).bind_eq fun _ => ?_
        exact (convolutionSizes_paired hplain _ _ w).bind_eq fun sizes => .ok rfl
  · exact .error (hplain _ (.mismatch _))

theorem inferPool_paired (op : String) (w : PoolWindow) (data : TensorType) :
    Paired fails Eq (inferPool op w data) (inferPool op w data) := by
  unfold inferPool
  refine (spatialParts_paired hplain _ data.shape).bind_eq fun parts => ?_
  refine (checkWindow_paired hplain _ _ _).bind_eq fun _ => ?_
  exact (poolSizes_paired hplain _ _ w).bind_eq fun sizes => .ok rfl

theorem inferDot_paired (a b : TensorType) : Paired fails Eq (inferDot a b) (inferDot a b) := by
  unfold inferDot
  split
  · exact .error (hplain _ (.mismatch _))
  · split
    · split
      · exact .error (hplain _ (.mismatch _))
      · exact .ok rfl
    · exact .error (hplain _ (.mismatch _))

theorem inferConcat_paired (axis : Nat) (operands : List TensorType) :
    Paired fails Eq (inferConcat axis operands) (inferConcat axis operands) := by
  unfold inferConcat
  split
  · exact .error (hplain _ (.mismatch _))
  · dsimp only
    split
    · exact .error (hplain _ (.mismatch _))
    · exact (concatSize_paired hplain _ _ _).bind_eq fun size => .ok rfl

/-- Whatever op is inferred, a failure is plain. -/
theorem infer_paired (op : Op) (operands : List TensorType) :
    Paired fails Eq (op.infer operands) (op.infer operands) := by
  cases op with
  | parameter _ | constant _ => exact .error (hplain _ (.mismatch _))
  | binary _ =>
    refine (twoOperands_paired hplain _ operands).bind_eq fun (a, b) => ?_
    dsimp only
    split
    · exact .ok rfl
    · exact .error (hplain _ (.mismatch _))
  | unary _ => exact oneOperand_paired hplain _ operands
  | convert _ => exact (oneOperand_paired hplain _ operands).bind_eq fun a => .ok rfl
  | dot =>
    exact (twoOperands_paired hplain _ operands).bind_eq fun (a, b) => inferDot_paired hplain a b
  | broadcast shape axes =>
    refine (oneOperand_paired hplain _ operands).bind_eq fun a => ?_
    refine (checkAxes_paired hplain _ axes _).bind_eq fun _ => ?_
    dsimp only
    split
    · exact .error (hplain _ (.mismatch _))
    · exact .ok rfl
  | reshape order shape =>
    refine (oneOperand_paired hplain _ operands).bind_eq fun a => ?_
    dsimp only
    split
    · exact .error (hplain _ (.mismatch _))
    · split
      · exact .error (hplain _ (.mismatch _))
      · exact .ok rfl
  | slice lower upper strides =>
    refine (oneOperand_paired hplain _ operands).bind_eq fun a => ?_
    dsimp only
    split
    · exact .error (hplain _ (.mismatch _))
    · refine Paired.bind_eq (Paired.mapM_eq fun axis => ?_) fun sizes => .ok rfl
      exact sliceAxis_paired hplain a.shape lower upper strides axis
  | concat axis => exact inferConcat_paired hplain axis operands
  | sum axes | softmax axes =>
    refine (oneOperand_paired hplain _ operands).bind_eq fun a => ?_
    exact (checkAxes_paired hplain _ axes _).bind_eq fun _ => .ok rfl
  | convolution w =>
    refine (twoOperands_paired hplain _ operands).bind_eq fun (data, filters) => ?_
    exact inferConvolution_paired hplain w data filters
  | maxPool w | avgPool w _ =>
    refine (oneOperand_paired hplain _ operands).bind_eq fun data => ?_
    exact inferPool_paired hplain _ w data

end Inference

/-! ### Runs on two arenas -/

/-- Two runs from arenas `g` and `g'` that only append to them and either succeed with results that
are alike or fail alike. -/
inductive Twin {α β : Type} (S : Simulation) (fails : Error → Error → Prop) (g g' : Graph)
    (post : Graph → Graph → α → β → Prop) :
    EStateM.Result Error Graph α → EStateM.Result Error Graph β → Prop where
  | ok {a : α} {b : β} {h h' : Graph} (hle : g ≤ h) (hle' : g' ≤ h') (harenas : S.arenas h h')
      (hpost : post h h' a b) : Twin S fails g g' post (.ok a h) (.ok b h')
  | error {e e' : Error} {h h' : Graph} (hle : g ≤ h) (hle' : g' ≤ h') (harenas : S.arenas h h')
      (hfails : fails e e') : Twin S fails g g' post (.error e h) (.error e' h')

namespace Twin

variable {α β γ δ : Type} {S : Simulation} {fails : Error → Error → Prop} {g g' : Graph}
  {mid : Graph → Graph → α → β → Prop} {post : Graph → Graph → γ → δ → Prop}

/-- Runs from later arenas are runs from earlier ones. -/
theorem of_le {h h' : Graph} {r : EStateM.Result Error Graph γ} {r' : EStateM.Result Error Graph δ}
    (hle : g ≤ h) (hle' : g' ≤ h') (hr : Twin S fails h h' post r r') :
    Twin S fails g g' post r r' := by
  cases hr with
  | ok hl hl' harenas hpost => exact .ok (hle.trans hl) (hle'.trans hl') harenas hpost
  | error hl hl' harenas hfails => exact .error (hle.trans hl) (hle'.trans hl') harenas hfails

theorem bind {m : Emit α} {m' : Emit β} {f : α → Emit γ} {f' : β → Emit δ}
    (hm : Twin S fails g g' mid (m g) (m' g'))
    (hf : ∀ {h h'} a b, g ≤ h → g' ≤ h' → S.arenas h h' → mid h h' a b →
      Twin S fails h h' post (f a h) (f' b h')) :
    Twin S fails g g' post ((m >>= f) g) ((m' >>= f') g') := by
  -- the mixed cases are ruled out by `hm`
  cases hr : m g with
  | ok a h =>
    cases hr' : m' g' with
    | ok b h' =>
      rw [hr, hr'] at hm
      cases hm with
      | ok hle hle' harenas hmid =>
        rw [Step.bind_of_ok hr, Step.bind_of_ok hr']
        exact (hf a b hle hle' harenas hmid).of_le hle hle'
    | error e' h' =>
      rw [hr, hr'] at hm
      cases hm
  | error e h =>
    cases hr' : m' g' with
    | ok b h' =>
      rw [hr, hr'] at hm
      cases hm
    | error e' h' =>
      rw [hr, hr'] at hm
      cases hm with
      | error hle hle' harenas hfails =>
        rw [Step.bind_of_error hr, Step.bind_of_error hr']
        exact .error hle hle' harenas hfails

theorem pure {c : γ} {d : δ} (harenas : S.arenas g g') (hpost : post g g' c d) :
    Twin S fails g g' post ((Pure.pure c : Emit γ) g) ((Pure.pure d : Emit δ) g') :=
  .ok le_rfl le_rfl harenas hpost

/-- A step that only hands a result on. -/
theorem pure_bind {a : α} {b : β} {f : α → Emit γ} {f' : β → Emit δ}
    (h : Twin S fails g g' post (f a g) (f' b g')) :
    Twin S fails g g' post (((Pure.pure a : Emit α) >>= f) g)
      (((Pure.pure b : Emit β) >>= f') g') := by
  rw [Step.bind_of_ok (show (Pure.pure a : Emit α) g = .ok a g from rfl),
    Step.bind_of_ok (show (Pure.pure b : Emit β) g' = .ok b g' from rfl)]
  exact h

/-- One of two steps, by a condition that both runs share, before the same continuation. -/
theorem ite_bind {c : Prop} [Decidable c] {m n : Emit α} {m' n' : Emit β} {f : α → Emit γ}
    {f' : β → Emit δ} (hm : Twin S fails g g' mid (m g) (m' g'))
    (hn : Twin S fails g g' mid (n g) (n' g'))
    (hf : ∀ {h h'} a b, g ≤ h → g' ≤ h' → S.arenas h h' → mid h h' a b →
      Twin S fails h h' post (f a h) (f' b h')) :
    Twin S fails g g' post ((if c then m >>= f else n >>= f) g)
      ((if c then m' >>= f' else n' >>= f') g') := by
  split
  · exact hm.bind hf
  · exact hn.bind hf

/-- Two runs that refuse at once. -/
theorem throw {e e' : Error} (harenas : S.arenas g g') (hfails : fails e e') :
    Twin S fails g g' post ((throw e : Emit γ) g) ((throw e' : Emit δ) g') :=
  .error le_rfl le_rfl harenas hfails

theorem throw_bind {e e' : Error} {f : α → Emit γ} {f' : β → Emit δ} (harenas : S.arenas g g')
    (hfails : fails e e') :
    Twin S fails g g' post (((MonadExcept.throw e : Emit α) >>= f) g)
      (((MonadExcept.throw e' : Emit β) >>= f') g') := by
  rw [Step.bind_of_error (Step.throw_apply e g), Step.bind_of_error (Step.throw_apply e' g')]
  exact .error le_rfl le_rfl harenas hfails

theorem lift {x : Except Error γ} {x' : Except Error δ} {result : γ → δ → Prop}
    (harenas : S.arenas g g') (hx : Paired fails result x x')
    (hpost : ∀ c d, result c d → post g g' c d) :
    Twin S fails g g' post ((liftM x : Emit γ) g) ((liftM x' : Emit δ) g') := by
  cases hx with
  | ok h => exact .ok le_rfl le_rfl harenas (hpost _ _ h)
  | error h => exact .error le_rfl le_rfl harenas h

/-- A computation without an arena leaves the arenas as they are. -/
theorem lift_bind {x : Except Error α} {x' : Except Error β} {result : α → β → Prop}
    {f : α → Emit γ} {f' : β → Emit δ} (harenas : S.arenas g g') (hx : Paired fails result x x')
    (hf : ∀ a b, result a b → Twin S fails g g' post (f a g) (f' b g')) :
    Twin S fails g g' post (((liftM x : Emit α) >>= f) g) (((liftM x' : Emit β) >>= f') g') := by
  cases hx with
  | ok h =>
    rw [Step.bind_of_ok (show (liftM (Except.ok _ : Except Error α) : Emit α) g = _ from rfl),
      Step.bind_of_ok (show (liftM (Except.ok _ : Except Error β) : Emit β) g' = _ from rfl)]
    exact hf _ _ h
  | error h => exact .error le_rfl le_rfl harenas h

theorem lift_bind_eq {x x' : Except Error α} {f : α → Emit γ} {f' : α → Emit δ}
    (harenas : S.arenas g g') (hx : Paired fails Eq x x')
    (hf : ∀ a, Twin S fails g g' post (f a g) (f' a g')) :
    Twin S fails g g' post (((liftM x : Emit α) >>= f) g) (((liftM x' : Emit α) >>= f') g') :=
  lift_bind harenas hx fun a _ hab => hab ▸ hf a

/-- Wires that are alike carry tensors of one type. -/
theorem typeOf_bind {w w' : Wire} {f : TensorType → Emit γ} {f' : TensorType → Emit δ}
    (hw : S.wires g g' w w') (hf : ∀ type, Twin S fails g g' post (f type g) (f' type g')) :
    Twin S fails g g' post ((typeOf w >>= f) g) ((typeOf w' >>= f') g') := by
  obtain ⟨type, ht, ht'⟩ := S.wires_type hw
  have htype : ∀ {k : Graph} {u : Wire}, k.type? u = some type → typeOf u k = .ok type k := by
    intro k u hu
    rw [typeOf, Step.bind_of_ok (Step.get_apply k), hu]
    rfl
  rw [Step.bind_of_ok (htype ht), Step.bind_of_ok (htype ht')]
  exact hf type

theorem shapeOf_bind {w w' : Wire} {f : Shape → Emit γ} {f' : Shape → Emit δ}
    (hw : S.wires g g' w w') (hf : ∀ shape, Twin S fails g g' post (f shape g) (f' shape g')) :
    Twin S fails g g' post ((shapeOf w >>= f) g) ((shapeOf w' >>= f') g') := by
  rw [shapeOf, shapeOf, bind_assoc, bind_assoc]
  exact typeOf_bind hw fun type => pure_bind (hf type.shape)

/-- The same op on wires that are alike is appended to both arenas, or to neither. -/
theorem emit_bind (hplain : ∀ e, e.Plain → fails e e) {op : Op} {ws ws' : List Wire}
    {f : Wire → Emit γ} {f' : Wire → Emit δ} (harenas : S.arenas g g')
    (hws : List.Forall₂ (S.wires g g') ws ws')
    (hf : ∀ {h h'} w w', g ≤ h → g' ≤ h' → S.arenas h h' → S.wires h h' w w' →
      Twin S fails h h' post (f w h) (f' w' h')) :
    Twin S fails g g' post ((emit op ws >>= f) g) ((emit op ws' >>= f') g') := by
  obtain ⟨operands, ho, ho'⟩ := S.types hws
  have hemit : ∀ {k : Graph} {us : List Wire}, k.types us = .ok operands → ∀ {type},
      op.infer operands = .ok type → emit op us k = .ok k.size (k.push op us type) := by
    intro k us hus type htype
    rw [emit_eq, Graph.infer_of_types hus, htype]
  have hfail : ∀ {k : Graph} {us : List Wire}, k.types us = .ok operands → ∀ {e},
      op.infer operands = .error e → emit op us k = .error e k := by
    intro k us hus e he
    rw [emit_eq, Graph.infer_of_types hus, he]
  -- the operand types are the same on both sides, so inference decides alike
  have hpaired := infer_paired hplain op operands
  cases hinfer : op.infer operands with
  | error e =>
    rw [Step.bind_of_error (hfail ho hinfer), Step.bind_of_error (hfail ho' hinfer)]
    rw [hinfer] at hpaired
    cases hpaired with
    | error h => exact .error le_rfl le_rfl harenas h
  | ok type =>
    obtain ⟨harenas', hw⟩ := S.append harenas hws ho ho' (.inferred hinfer)
    rw [Step.bind_of_ok (hemit ho hinfer), Step.bind_of_ok (hemit ho' hinfer)]
    exact (hf _ _ (g.le_push op ws type) (g'.le_push op ws' type) harenas' hw).of_le
      (g.le_push op ws type) (g'.le_push op ws' type)

theorem emitConstant_bind {value : Tensor} {f : Wire → Emit γ} {f' : Wire → Emit δ}
    (harenas : S.arenas g g')
    (hf : ∀ {h h'} w w', g ≤ h → g' ≤ h' → S.arenas h h' → S.wires h h' w w' →
      Twin S fails h h' post (f w h) (f' w' h')) :
    Twin S fails g g' post ((emitConstant value >>= f) g) ((emitConstant value >>= f') g') := by
  obtain ⟨harenas', hw⟩ := S.append harenas (.nil) rfl rfl (.constant value rfl rfl rfl)
  have hle := g.le_push (.constant value) [] ⟨value.type, value.shape⟩
  have hle' := g'.le_push (.constant value) [] ⟨value.type, value.shape⟩
  exact (hf _ _ hle hle' harenas' hw).of_le hle hle'

theorem emit (hplain : ∀ e, e.Plain → fails e e) {op : Op} {ws ws' : List Wire}
    (harenas : S.arenas g g') (hws : List.Forall₂ (S.wires g g') ws ws') :
    Twin S fails g g' S.wires (Target.emit op ws g) (Target.emit op ws' g') := by
  rw [← bind_pure (Target.emit op ws), ← bind_pure (Target.emit op ws')]
  exact emit_bind hplain harenas hws fun w w' _ _ harenas hw => pure harenas hw

/-! ### Loops -/

/-- A list of computations without an arena is itself one. -/
theorem mapM_lift {ι : Type} (l : List ι) (f : ι → Except Error γ) :
    (l.mapM fun i => (liftM (f i) : Emit γ)) = liftM (l.mapM f) := by
  induction l with
  | nil => rfl
  | cons i l ih =>
    rw [List.mapM_cons, List.mapM_cons, ih]
    cases f i with
    | error e => rfl
    | ok c => cases l.mapM f <;> rfl

/-- A fold over wires that are alike, from wires that are alike. -/
theorem foldlM_wires {l l' : List Wire} {f f' : Wire → Wire → Emit Wire}
    (step : ∀ {h h' a a' w w'}, S.arenas h h' → S.wires h h' a a' → S.wires h h' w w' →
      Twin S fails h h' S.wires (f a w h) (f' a' w' h')) :
    ∀ {g g' a a'}, S.arenas g g' → List.Forall₂ (S.wires g g') l l' → S.wires g g' a a' →
      Twin S fails g g' S.wires (l.foldlM f a g) (l'.foldlM f' a' g') := by
  induction l generalizing l' with
  | nil =>
    intro g g' a a' harenas hl ha
    cases hl
    exact pure harenas ha
  | cons w l ih =>
    intro g g' a a' harenas hl ha
    cases hl with
    | cons hw hl =>
      rw [List.foldlM_cons, List.foldlM_cons]
      refine (step harenas ha hw).bind fun b b' hle hle' harenas hb => ?_
      exact ih harenas (hl.imp fun _ _ => S.wires_mono hle hle') hb

/-- A list of steps whose results are wires that are alike. -/
theorem mapM_wires {ι : Type} {l : List ι} {f f' : ι → Emit Wire} :
    ∀ {g g'}, S.arenas g g' →
      (∀ {h h'} i, g ≤ h → g' ≤ h' → S.arenas h h' → Twin S fails h h' S.wires (f i h) (f' i h')) →
      Twin S fails g g' (fun h h' => List.Forall₂ (S.wires h h')) (l.mapM f g) (l.mapM f' g') := by
  induction l with
  | nil =>
    intro g g' harenas _
    exact pure harenas .nil
  | cons i l ih =>
    intro g g' harenas step
    rw [List.mapM_cons, List.mapM_cons]
    refine (step i le_rfl le_rfl harenas).bind fun w w' hle hle' harenas hw => ?_
    refine (ih harenas fun j hj hj' => step j (hle.trans hj) (hle'.trans hj')).bind
      fun ws ws' hle hle' harenas hws => ?_
    exact pure harenas (.cons (S.wires_mono hle hle' hw) hws)

end Twin

end GraphLowering
