import GraphLowering.Rule.Context

/-!
# Broadcasting

Two shapes are aligned at their last axes. A size of one, or an axis that one of them lacks,
stretches to the size of the other; any other difference makes the shapes incompatible.

* `broadcastShapes` — the common shape of two shapes.
* `broadcastTo` — stretches a wire to a shape.
* `broadcastBoth` — stretches two wires to their common shape.
-/

namespace GraphLowering

open Target

/-- The common size of two aligned axes. -/
def commonSize (a b : Nat) : Option Nat :=
  if a = b ∨ b = 1 then some a else if a = 1 then some b else none

/-- The common shape of two shapes written from the last axis to the first. -/
def broadcastReversed : List Nat → List Nat → Option (List Nat)
  | [], bs => some bs
  | as, [] => some as
  | a :: as, b :: bs =>
    match commonSize a b, broadcastReversed as bs with
    | some size, some sizes => some (size :: sizes)
    | _, _ => none

/-- The common shape of two shapes. -/
def broadcastShapes (a b : Shape) : Option Shape :=
  (broadcastReversed a.reverse b.reverse).map List.reverse

/-- Stretches a wire to a shape. The axes of size one that stretch are dropped first, since a
broadcast op repeats along axes that its operand does not have. -/
def broadcastTo (ctx : Context) (x : Wire) (target : Shape) : Emit Wire := do
  let shape ← shapeOf x
  if shape = target then
    return x
  if target.length < shape.length then
    throw (ctx.refuse (.broadcastRank shape target))
  let missing ← minus target.length shape.length
  let aligned := shape.zip (target.drop missing)
  if aligned.any fun (size, wanted) => size ≠ wanted && size ≠ 1 then
    throw (ctx.refuse (.broadcast shape target))
  let kept := (aligned.filter fun (size, wanted) => size = wanted).map Prod.fst
  let stretched := (aligned.zipIdx missing).filterMap fun ((size, wanted), axis) =>
    if size = wanted then none else some axis
  let y ←
    if kept.length = shape.length then pure x
    else emit (.reshape (List.range shape.length) kept) [x]
  emit (.broadcast target (List.range missing ++ stretched)) [y]

/-- Stretches two wires to their common shape. -/
def broadcastBoth (ctx : Context) (a b : Wire) : Emit (Wire × Wire) := do
  let s ← shapeOf a
  let t ← shapeOf b
  match broadcastShapes s t with
  | none => throw (ctx.refuse (.incompatible s t))
  | some target => return (← broadcastTo ctx a target, ← broadcastTo ctx b target)

end GraphLowering
