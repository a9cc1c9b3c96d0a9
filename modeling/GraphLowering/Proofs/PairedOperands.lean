import Mathlib
import GraphLowering.Proofs.CommonShapes
import GraphLowering.Proofs.WindowRuns

/-!
# Ops on two tensors, element by element

Nine op types combine two tensors element by element. All of them stretch the tensors to their common
shape first and then append ops that need operands of one type. So such an op is lowered just if the
shapes have a common shape and the elements are of one type: without a common shape the node is
refused before anything is appended, and tensors of one shape with different elements are refused by
the first op that compares them.

* `pairedOps` — the op types.
* `PairOp` — what is done behind the common shape, and the first op that does it.
* `broadcastBoth_of_common`, `broadcastBoth_of_none` — how two tensors are stretched.
* `PairOp.combine_of_same`, `PairOp.combine_of_ne` — how two tensors of one shape are combined.
* `pairedOps_outcome` — when such an op is lowered, and how it fails.
-/

namespace GraphLowering

open Target

/-! ### Two tensors of a common shape -/

section Common

variable {g : Graph} {x y : Wire} {s t : TensorType}

/-- Two tensors with a common shape are stretched to it one after the other; the second is stretched
in the arena that the first one leaves. -/
theorem broadcastBoth_of_common (ctx : Context) {shape : Shape} (hx : g.type? x = some s)
    (hy : g.type? y = some t) (hcommon : broadcastShapes s.shape t.shape = some shape) :
    ∃ a g₁ b h, broadcastTo ctx x shape g = .ok a g₁ ∧ broadcastTo ctx y shape g₁ = .ok b h ∧
      broadcastBoth ctx x y g = .ok (a, b) h ∧ g ≤ h ∧
      h.type? a = some ⟨s.element, shape⟩ ∧ h.type? b = some ⟨t.element, shape⟩ := by
  obtain ⟨a, g₁, hrun, hle, ha⟩ := exists_broadcastTo ctx hx (stretches_left_of_common hcommon)
  obtain ⟨b, h, hrun', hle', hb⟩ := exists_broadcastTo ctx (Graph.type?_mono hle hy)
    (stretches_right_of_common hcommon)
  refine ⟨a, g₁, b, h, hrun, hrun', ?_, hle.trans hle', Graph.type?_mono hle' ha, hb⟩
  rw [broadcastBoth, Step.bind_of_ok (shapeOf_of_type? hx), Step.bind_of_ok (shapeOf_of_type? hy),
    hcommon]
  dsimp only
  rw [Step.bind_of_ok hrun, Step.bind_of_ok hrun']
  rfl

/-- Two tensors without a common shape are refused, and the arena stays as it is. -/
theorem broadcastBoth_of_none (ctx : Context) (hx : g.type? x = some s) (hy : g.type? y = some t)
    (hnone : broadcastShapes s.shape t.shape = none) :
    broadcastBoth ctx x y g = .error (ctx.refuse (.incompatible s.shape t.shape)) g := by
  rw [broadcastBoth, Step.bind_of_ok (shapeOf_of_type? hx), Step.bind_of_ok (shapeOf_of_type? hy),
    hnone]
  rfl

end Common

/-! ### What is done behind the common shape -/

/-- The ways to combine two tensors of one shape. -/
inductive PairOp where
  | arithmetic (f : BinaryOp)
  | floorDivide
  | floorModulo

namespace PairOp

/-- The kind of the ops that combine tensors in this way. -/
def kind : PairOp → OpKind
  | arithmetic f => .arithmetic f
  | floorDivide => .floorDivide
  | floorModulo => .floorModulo

/-- The first op that is appended behind the common shape. -/
def first : PairOp → BinaryOp
  | arithmetic f => f
  | floorDivide => .divide
  | floorModulo => .divide

/-- The steps that combine two tensors of one shape. -/
def combine : PairOp → Wire → Wire → Emit Wire
  | arithmetic f, a, b => emit (.binary f) [a, b]
  | floorDivide, a, b => do
    let quotient ← emit (.binary .divide) [a, b]
    emit (.unary .floor) [quotient]
  | floorModulo, a, b => do
    let quotient ← emit (.binary .divide) [a, b]
    let floored ← emit (.unary .floor) [quotient]
    let scaled ← emit (.binary .multiply) [floored, b]
    emit (.binary .subtract) [a, scaled]

/-- The rule of each kind stretches its operands, combines them, and fills the first output slot. -/
theorem rule_eq (p : PairOp) {ctx : Context} (hinputs : ctx.node.inputs = 2) (x y : Wire)
    (g : Graph) :
    p.kind.rule ctx [x, y] g =
      (broadcastBoth ctx x y >>= fun ab => p.combine ab.1 ab.2 >>= fun w =>
        (liftM (ctx.output w) : Emit Outputs)) g := by
  cases p with
  | arithmetic f => exact Context.needInputs_run hinputs
  | floorDivide =>
    simp only [combine, bind_assoc]
    exact Context.needInputs_run hinputs
  | floorModulo =>
    simp only [combine, bind_assoc]
    exact Context.needInputs_run hinputs

variable {g : Graph} {a b : Wire}

/-- Tensors of one type are combined to a tensor of that type. -/
theorem combine_of_same (p : PairOp) {type : TensorType} (ha : g.type? a = some type)
    (hb : g.type? b = some type) :
    ∃ w h, p.combine a b g = .ok w h ∧ h.type? w = some type := by
  have hfloor : ∀ {h : Graph} {w : Wire}, h.type? w = some type →
      h.infer (.unary .floor) [w] = .ok type :=
    fun hw => Graph.infer_of_types (Graph.types_one hw)
  obtain ⟨q, g₁, hquotient, hle₁, hq⟩ := exists_emit (infer_binary_same .divide ha hb)
  obtain ⟨r, g₂, hfloored, hle₂, hr⟩ := exists_emit (hfloor hq)
  cases p with
  | arithmetic f =>
    obtain ⟨w, h, hrun, -, hw⟩ := exists_emit (infer_binary_same f ha hb)
    exact ⟨w, h, hrun, hw⟩
  | floorDivide => exact ⟨r, g₂, (Step.bind_of_ok hquotient).trans hfloored, hr⟩
  | floorModulo =>
    have hle := hle₁.trans hle₂
    obtain ⟨m, g₃, hscaled, hle₃, hm⟩ :=
      exists_emit (infer_binary_same .multiply hr (Graph.type?_mono hle hb))
    obtain ⟨w, h, hrest, -, hw⟩ :=
      exists_emit (infer_binary_same .subtract (Graph.type?_mono (hle.trans hle₃) ha) hm)
    refine ⟨w, h, ?_, hw⟩
    rw [combine, Step.bind_of_ok hquotient, Step.bind_of_ok hfloored, Step.bind_of_ok hscaled,
      hrest]

/-- Tensors of two types are refused by the first op, and the arena stays as it is. -/
theorem combine_of_ne (p : PairOp) {s t : TensorType} (ha : g.type? a = some s)
    (hb : g.type? b = some t) (hne : s ≠ t) :
    p.combine a b g = .error (.mismatch
      (.operandsDiffer (Op.binary p.first).name s.element s.shape t.element t.shape)) g := by
  cases p with
  | arithmetic f => exact emit_binary_of_ne f ha hb hne
  | floorDivide => exact Step.bind_of_error (emit_binary_of_ne .divide ha hb hne)
  | floorModulo => exact Step.bind_of_error (emit_binary_of_ne .divide ha hb hne)

end PairOp

/-! ### How the rules end -/

/-- The op types that combine two tensors element by element. -/
def pairedOps : List String :=
  ["Add", "AddV2", "Sub", "Mul", "RealDiv", "Maximum", "Minimum", "FloorDiv", "FloorMod"]

theorem exists_pairOp {op : String} (h : op ∈ pairedOps) :
    ∃ p : PairOp, OpKind.ofName? op = some p.kind := by
  simp only [pairedOps, List.mem_cons, List.not_mem_nil, or_false] at h
  rcases h with rfl | rfl | rfl | rfl | rfl | rfl | rfl | rfl | rfl
  · exact ⟨.arithmetic .add, rfl⟩
  · exact ⟨.arithmetic .add, rfl⟩
  · exact ⟨.arithmetic .subtract, rfl⟩
  · exact ⟨.arithmetic .multiply, rfl⟩
  · exact ⟨.arithmetic .divide, rfl⟩
  · exact ⟨.arithmetic .maximum, rfl⟩
  · exact ⟨.arithmetic .minimum, rfl⟩
  · exact ⟨.floorDivide, rfl⟩
  · exact ⟨.floorModulo, rfl⟩

section Outcome

variable {ctx : Context} {g : Graph} {x y : Wire} {s t : TensorType} {shape : Shape}

theorem PairOp.rule_of_none (p : PairOp) (hinputs : ctx.node.inputs = 2) (hx : g.type? x = some s)
    (hy : g.type? y = some t) (hnone : broadcastShapes s.shape t.shape = none) :
    p.kind.rule ctx [x, y] g = .error (ctx.refuse (.incompatible s.shape t.shape)) g := by
  rw [p.rule_eq hinputs]
  exact Step.bind_of_error (broadcastBoth_of_none ctx hx hy hnone)

theorem PairOp.rule_of_same (p : PairOp) (hinputs : ctx.node.inputs = 2)
    (hslots : 0 < ctx.node.outputs) (hx : g.type? x = some s) (hy : g.type? y = some t)
    (hcommon : broadcastShapes s.shape t.shape = some shape) (hsame : s.element = t.element) :
    ∃ w h, p.kind.rule ctx [x, y] g =
        .ok (some w :: List.replicate (ctx.node.outputs - 1) none) h ∧
      h.type? w = some ⟨s.element, shape⟩ := by
  obtain ⟨a, g₁, b, g₂, -, -, hboth, -, ha, hb⟩ := broadcastBoth_of_common ctx hx hy hcommon
  rw [← hsame] at hb
  obtain ⟨w, h, hcombine, hw⟩ := p.combine_of_same ha hb
  refine ⟨w, h, ?_, hw⟩
  rw [p.rule_eq hinputs, Step.bind_of_ok hboth, Step.bind_of_ok hcombine]
  exact Context.output_run hslots w h

theorem PairOp.rule_of_ne (p : PairOp) (hinputs : ctx.node.inputs = 2) (hx : g.type? x = some s)
    (hy : g.type? y = some t) (hcommon : broadcastShapes s.shape t.shape = some shape)
    (hne : s.element ≠ t.element) :
    ∃ h, p.kind.rule ctx [x, y] g = .error (.mismatch
      (.operandsDiffer (Op.binary p.first).name s.element shape t.element shape)) h := by
  obtain ⟨a, g₁, b, h, -, -, hboth, -, ha, hb⟩ := broadcastBoth_of_common ctx hx hy hcommon
  have htypes : (⟨s.element, shape⟩ : TensorType) ≠ ⟨t.element, shape⟩ :=
    fun heq => hne (TensorType.mk.inj heq).1
  refine ⟨h, ?_⟩
  rw [p.rule_eq hinputs, Step.bind_of_ok hboth]
  exact Step.bind_of_error (p.combine_of_ne ha hb htypes)

/-- **Ops on two tensors fail for their operands only.** A node that combines two tensors element by
element, with two inputs and an output slot, is lowered iff the shapes have a common shape and the
elements are of one type; the result then has the common shape and that element type, and takes the
first output slot. Without a common shape the node is refused and nothing has been appended. With a
common shape both operands can be stretched to it, so elements of two types are all that is left to go
wrong, and then inference refuses the stretched operands. -/
theorem pairedOps_outcome (hop : ctx.node.op ∈ pairedOps) (hinputs : ctx.node.inputs = 2)
    (hslots : 0 < ctx.node.outputs) (hx : g.type? x = some s) (hy : g.type? y = some t) :
    ∃ kind, OpKind.ofName? ctx.node.op = some kind ∧
      ((∃ outputs h, kind.rule ctx [x, y] g = .ok outputs h) ↔
        (∃ shape, broadcastShapes s.shape t.shape = some shape) ∧ s.element = t.element) ∧
      (∀ outputs h, kind.rule ctx [x, y] g = .ok outputs h →
        ∃ shape w, broadcastShapes s.shape t.shape = some shape ∧
          outputs = some w :: List.replicate (ctx.node.outputs - 1) none ∧
          h.type? w = some ⟨s.element, shape⟩) ∧
      (broadcastShapes s.shape t.shape = none →
        kind.rule ctx [x, y] g = .error (ctx.refuse (.incompatible s.shape t.shape)) g) ∧
      ∀ shape, broadcastShapes s.shape t.shape = some shape →
        (∃ a g₁ b g₂, broadcastTo ctx x shape g = .ok a g₁ ∧
          broadcastTo ctx y shape g₁ = .ok b g₂) ∧
        (s.element ≠ t.element → ∃ name h, kind.rule ctx [x, y] g =
          .error (.mismatch (.operandsDiffer name s.element shape t.element shape)) h) := by
  obtain ⟨p, hkind⟩ := exists_pairOp hop
  refine ⟨p.kind, hkind, ?_⟩
  cases hshapes : broadcastShapes s.shape t.shape with
  | none =>
    have hrun := p.rule_of_none hinputs hx hy hshapes
    rw [hrun]
    exact ⟨iff_of_false nofun nofun, nofun, fun _ => rfl, nofun⟩
  | some shape =>
    have hstretch : ∀ shape', some shape = some shape' → ∃ a g₁ b g₂,
        broadcastTo ctx x shape' g = .ok a g₁ ∧ broadcastTo ctx y shape' g₁ = .ok b g₂ := by
      rintro _ ⟨⟩
      obtain ⟨a, g₁, b, g₂, hleft, hright, -⟩ := broadcastBoth_of_common ctx hx hy hshapes
      exact ⟨a, g₁, b, g₂, hleft, hright⟩
    by_cases hsame : s.element = t.element
    · obtain ⟨w, h, hrun, hw⟩ := p.rule_of_same hinputs hslots hx hy hshapes hsame
      rw [hrun]
      refine ⟨iff_of_true ⟨_, _, rfl⟩ ⟨⟨shape, rfl⟩, hsame⟩, ?_, nofun, fun shape' heq => ?_⟩
      · rintro _ _ ⟨⟩
        exact ⟨shape, w, rfl, rfl, hw⟩
      · exact ⟨hstretch shape' heq, fun hne => absurd hsame hne⟩
    · obtain ⟨h, hrun⟩ := p.rule_of_ne hinputs hx hy hshapes hsame
      rw [hrun]
      refine ⟨iff_of_false nofun fun hboth => hsame hboth.2, nofun, nofun, fun shape' heq => ?_⟩
      refine ⟨hstretch shape' heq, fun _ => ?_⟩
      cases heq
      exact ⟨_, h, rfl⟩

end Outcome

/-- The context of a remainder. -/
def remainderContext : Context :=
  ⟨{ name := "rest", op := "FloorMod", index := 0, inputs := 2 }, {}, []⟩

/-- An arena with a tensor, one that has a common shape with it, one with other elements, and one that
has no common shape with it. -/
def fourOperands : Graph :=
  .ofParameters [⟨.f32, [4, 1, 5]⟩, ⟨.f32, [3, 1]⟩, ⟨.i32, [3, 1]⟩, ⟨.f32, [3, 2]⟩]

/-- The remainders of the first tensor by the three others. -/
theorem remainders_outcome :
    (∃ w h, OpKind.floorModulo.rule remainderContext [0, 1] fourOperands = .ok [some w] h ∧
      h.type? w = some ⟨.f32, [4, 3, 5]⟩) ∧
    (∃ name h, OpKind.floorModulo.rule remainderContext [0, 2] fourOperands =
      .error (.mismatch (.operandsDiffer name .f32 [4, 3, 5] .i32 [4, 3, 5])) h) ∧
    OpKind.floorModulo.rule remainderContext [0, 3] fourOperands =
      .error (.rule "rest" "FloorMod" (.incompatible [4, 1, 5] [3, 2])) fourOperands := by
  have hop : remainderContext.node.op ∈ pairedOps := by decide
  have hfirst : fourOperands.type? 0 = some ⟨.f32, [4, 1, 5]⟩ := rfl
  refine ⟨?_, ?_, ?_⟩
  · obtain ⟨kind, hkind, haccepted, hresult, -⟩ :=
      pairedOps_outcome (y := 1) (t := ⟨.f32, [3, 1]⟩) hop rfl (by decide) hfirst rfl
    obtain rfl : OpKind.floorModulo = kind := Option.some.inj hkind
    obtain ⟨outputs, h, hrun⟩ := haccepted.mpr ⟨⟨[4, 3, 5], by decide⟩, rfl⟩
    obtain ⟨shape, w, hshape, rfl, hw⟩ := hresult outputs h hrun
    obtain rfl : [4, 3, 5] = shape := Option.some.inj (Eq.trans (by decide) hshape)
    exact ⟨w, h, hrun, hw⟩
  · obtain ⟨kind, hkind, -, -, -, hcommon⟩ :=
      pairedOps_outcome (y := 2) (t := ⟨.i32, [3, 1]⟩) hop rfl (by decide) hfirst rfl
    obtain rfl : OpKind.floorModulo = kind := Option.some.inj hkind
    exact (hcommon [4, 3, 5] (by decide)).2 (by decide)
  · obtain ⟨kind, hkind, -, -, hnone, -⟩ :=
      pairedOps_outcome (y := 3) (t := ⟨.f32, [3, 2]⟩) hop rfl (by decide) hfirst rfl
    obtain rfl : OpKind.floorModulo = kind := Option.some.inj hkind
    exact hnone (by decide)

end GraphLowering
