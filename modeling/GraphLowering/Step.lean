import GraphLowering.Error

/-!
# Steps

A step runs on a state and either extends it or fails. A step that fails keeps the state as it was
at the failure.
-/

namespace GraphLowering

/-- A computation on a state that may fail. -/
abbrev Step (σ : Type) := EStateM Error σ

/-- A computation without a state is a step that leaves the state alone. -/
instance instMonadLiftExceptStep {σ : Type} : MonadLift (Except Error) (Step σ) where
  monadLift
    | .ok a => pure a
    | .error e => throw e

end GraphLowering
