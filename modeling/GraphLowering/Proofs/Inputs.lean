import Mathlib
import GraphLowering.Proofs.Prepared

/-!
# Inputs in terms of edges

What feeds an input slot is the data edge that ends there. `resolveInput` and `Context.staticInput`
follow that edge, and everything they answer is said here of the edge, its producer and what has
been kept for it.

* `resolveInput_eq_ok`, `resolveInput_error` — the wire behind a slot, and the ways to have none.
* `Context.staticInput_error`, `Context.staticInput_eq_ok` — the ways to have no value, or one.
-/

namespace GraphLowering

open Source Target

theorem Source.Graph.Carries.leads {g : Source.Graph} {j output i slot : Nat}
    (h : g.Carries j output i slot) : g.Leads j i :=
  ⟨_, h, rfl, rfl⟩

/-! ### The wire behind a slot -/

section Resolve

variable {g : Source.Graph} (wf : g.WellFormed) {outputs : OutputMap} {i slot : Nat}
  {v : Source.Node} (hv : g.node? i = some v)
include wf hv

theorem resolveInput_of_carries {j output : Nat} {producer : Source.Node}
    (h : g.Carries j output i slot) (hp : g.node? j = some producer) :
    resolveInput g outputs v slot =
      match outputs.get? producer.name with
      | none => .error (.inputNotFound v.name slot (.notLowered producer.name))
      | some wires =>
        match wires[output]?.join with
        | some w => .ok w
        | none => .error (.inputNotFound v.name slot (.noOutput producer.name output)) := by
  simp only [resolveInput, Graph.inputEdge?_of_carries wf hv h, Graph.node_of_some hp]
  show (match outputs.get? producer.name with | none => _ | some wires => _) = _
  cases outputs.get? producer.name with
  | none => rfl
  | some wires =>
    dsimp only
    cases wires[output]?.join with
    | none => rfl
    | some w => rfl

/-- The wire behind a slot is the one kept for the output slot that feeds it. -/
theorem resolveInput_eq_ok {w : Wire} :
    resolveInput g outputs v slot = .ok w ↔
      ∃ j output producer wires, g.Carries j output i slot ∧ g.node? j = some producer ∧
        outputs.get? producer.name = some wires ∧ wires[output]?.join = some w := by
  constructor
  · intro h
    obtain ⟨hnone, -⟩ | ⟨j, output, hcarries, -⟩ := Graph.inputEdge?_cases wf hv slot
    · rw [resolveInput, hnone] at h
      cases h
    · obtain ⟨producer, hp⟩ := hcarries.exists_producer wf
      rw [resolveInput_of_carries wf hv hcarries hp] at h
      split at h
      case h_1 => simp at h
      case h_2 wires hwires =>
        split at h
        case h_1 w' hw' =>
          exact ⟨j, output, producer, wires, hcarries, hp, hwires, Except.ok.inj h ▸ hw'⟩
        case h_2 => simp at h
  · rintro ⟨j, output, producer, wires, hcarries, hp, hwires, hw⟩
    simp only [resolveInput_of_carries wf hv hcarries hp, hwires, hw]

/-- A slot without a wire has no edge, or its producer has not been lowered or has left the output
slot empty. -/
theorem resolveInput_error {e : Error} (h : resolveInput g outputs v slot = .error e) :
    e = .inputNotFound v.name slot (.noEdge v.inputs) ∨
    ∃ j output producer, g.Carries j output i slot ∧ g.node? j = some producer ∧
      (outputs.get? producer.name = none ∧
          e = .inputNotFound v.name slot (.notLowered producer.name) ∨
        e = .inputNotFound v.name slot (.noOutput producer.name output)) := by
  obtain ⟨hnone, -⟩ | ⟨j, output, hcarries, -⟩ := Graph.inputEdge?_cases wf hv slot
  · rw [resolveInput, hnone] at h
    exact .inl (Except.error.inj h).symm
  · obtain ⟨producer, hp⟩ := hcarries.exists_producer wf
    refine .inr ⟨j, output, producer, hcarries, hp, ?_⟩
    rw [resolveInput_of_carries wf hv hcarries hp] at h
    split at h
    case h_1 hwires => exact .inl ⟨hwires, (Except.error.inj h).symm⟩
    case h_2 =>
      split at h
      · simp at h
      · exact .inr (Except.error.inj h).symm

end Resolve

/-! ### The value on a slot -/

/-- The failures that are neither an input without a wire nor an argument without its value. -/
def Error.Ordinary : Error → Prop
  | .inputNotFound .. => False
  | .rule _ _ (.valueNotSupplied ..) => False
  | _ => True

theorem Source.Node.attrOfKind_error {v : Source.Node} {α : Type} {key expected : String}
    {read : Attribute → Option α} {e : Error} (h : v.attrOfKind key expected read = .error e) :
    e = .missingAttribute v.name key ∨
      ∃ got, e = .invalid (.attributeKind v.name key got expected) := by
  unfold Source.Node.attrOfKind Source.Node.attrOfKind? at h
  cases hattr : v.attr? key with
  | none =>
    simp only [hattr] at h
    exact .inl (Except.error.inj h).symm
  | some attr =>
    simp only [hattr] at h
    cases hread : read attr with
    | none =>
      simp only [hread] at h
      exact .inr ⟨attr.kind, (Except.error.inj h).symm⟩
    | some value =>
      simp only [hread] at h
      exact absurd h (by simp)

theorem Source.Node.attrOfKind_ordinary {v : Source.Node} {α : Type} {key expected : String}
    {read : Attribute → Option α} {e : Error} (h : v.attrOfKind key expected read = .error e) :
    e.Ordinary := by
  obtain rfl | ⟨got, rfl⟩ := Source.Node.attrOfKind_error h
  · exact trivial
  · exact trivial

theorem position_ordinary {v : Source.Node} {e : Error} (h : position v = .error e) :
    e.Ordinary := by
  obtain h | ⟨index, -, h⟩ := except_bind_eq_error.mp h
  · exact Source.Node.attrOfKind_ordinary h
  · split at h
    · obtain rfl := Except.error.inj h
      exact trivial
    · cases h

/-- A value is missing for an ordinary reason, or because an argument that feeds the slot has none
among the known ones. -/
theorem Context.staticInput_error (ctx : Context) (wf : ctx.graph.WellFormed) {i slot : Nat}
    (hv : ctx.graph.node? i = some ctx.node) {e : Error}
    (h : ctx.staticInput slot = .error e) :
    e.Ordinary ∨ ∃ j output producer index, ctx.graph.Carries j output i slot ∧
      ctx.graph.node? j = some producer ∧ producer.isArgument = true ∧
      producer.int "index" = .ok index ∧ ctx.argumentValue? index = none ∧
      e = ctx.refuse (.valueNotSupplied slot index) := by
  obtain ⟨hnone, -⟩ | ⟨j, output, hcarries, hedge⟩ := Graph.inputEdge?_cases wf hv slot
  · rw [staticInput, hnone] at h
    obtain rfl := Except.error.inj h
    exact .inl trivial
  · obtain ⟨producer, hp⟩ := hcarries.exists_producer wf
    simp only [staticInput, hedge, Graph.node_of_some hp, except_ok_bind] at h
    split at h
    case isTrue harg =>
      obtain h | ⟨index, hindex, h⟩ := except_bind_eq_error.mp h
      · exact .inl (Source.Node.attrOfKind_ordinary h)
      · split at h
        · cases h
        case h_2 hvalue =>
          exact .inr ⟨j, output, producer, index, hcarries, hp, harg, hindex, hvalue,
            (Except.error.inj h).symm⟩
    case isFalse =>
      split at h
      · exact .inl (Source.Node.attrOfKind_ordinary h)
      · obtain rfl := Except.error.inj h
        exact .inl trivial

/-- A value is known on a slot that an argument with a known value or a constant feeds. -/
theorem Context.staticInput_eq_ok (ctx : Context) (wf : ctx.graph.WellFormed) {i slot : Nat}
    (hv : ctx.graph.node? i = some ctx.node) {value : Tensor}
    (h : ctx.staticInput slot = .ok value) :
    ∃ j output producer, ctx.graph.Carries j output i slot ∧ ctx.graph.node? j = some producer ∧
      ((producer.isArgument = true ∧ ∃ index, producer.int "index" = .ok index ∧
          ctx.argumentValue? index = some value) ∨
        producer.op = "Const" ∧ producer.tensor "value" = .ok value) := by
  obtain ⟨hnone, -⟩ | ⟨j, output, hcarries, hedge⟩ := Graph.inputEdge?_cases wf hv slot
  · rw [staticInput, hnone] at h
    cases h
  · obtain ⟨producer, hp⟩ := hcarries.exists_producer wf
    simp only [staticInput, hedge, Graph.node_of_some hp, except_ok_bind] at h
    refine ⟨j, output, producer, hcarries, hp, ?_⟩
    split at h
    case isTrue harg =>
      obtain ⟨index, hindex, h⟩ := except_bind_eq_ok.mp h
      split at h
      case h_1 known hknown =>
        obtain rfl := Except.ok.inj h
        exact .inl ⟨harg, index, hindex, hknown⟩
      case h_2 => cases h
    case isFalse =>
      split at h
      case isTrue hconst => exact .inr ⟨hconst, h⟩
      case isFalse => cases h

end GraphLowering
