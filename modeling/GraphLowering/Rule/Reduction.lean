import GraphLowering.Rule.Layout

/-!
# Reductions

Sums and means along the axes on input slot 1. Only the set of axes counts, not their order, their
sign or their repetition.

* `inOrder`, `withoutRepeats` — numbers brought into order, and cleared of repeats.
* `reductionAxes` — the axes of a reduction.
* `Rule.reduce` — the rule.
-/

namespace GraphLowering

open Target

/-- Puts a number before the first number of the list that is not below it. -/
def insertInOrder (n : Nat) : List Nat → List Nat
  | [] => [n]
  | m :: rest => if n ≤ m then n :: m :: rest else m :: insertInOrder n rest

/-- The numbers of a list, each put into its place behind those that are smaller. -/
def inOrder (numbers : List Nat) : List Nat := numbers.foldr insertInOrder []

/-- The list without the numbers that have an equal one right behind them. -/
def withoutRepeats : List Nat → List Nat
  | [] => []
  | n :: rest => if rest.head? = some n then withoutRepeats rest else n :: withoutRepeats rest

/-- The axes on input slot 1, brought into order and cleared of repeats. -/
def reductionAxes (ctx : Context) (rank : Nat) : Except Error (List Nat) := do
  let axes ← (← ctx.staticInts 1).mapM fun a => ctx.axis a rank
  return withoutRepeats (inOrder axes)

/-- The shape with the listed axes set to one. -/
def unitSizes (axes : List Nat) (shape : Shape) : Shape :=
  shape.zipIdx.map fun (size, axis) => if axes.contains axis then 1 else size

/-- The number of elements along the listed axes. -/
def elementsAlong (axes : List Nat) (shape : Shape) : Except Error Nat := do
  return Shape.elements (← axes.mapM fun axis => entryAt shape axis)

namespace Rule

/-- The sum, or with `mean` the mean, along the axes on input slot 1. With attribute `keep_dims` the
axes stay, with size one. -/
def reduce (mean : Bool) : Rule := fun ctx inputs => do
  ctx.needInputs 2
  let x ← entryAt inputs 0
  let shape ← shapeOf x
  let axes ← reductionAxes ctx shape.length
  let keep ← ctx.node.boolOr "keep_dims" false
  let total ← emit (.sum axes) [x]
  let result ←
    if mean then
      let count ← elementsAlong axes shape
      let type ← typeOf total
      let divisor ← emitConstant (.filled type.element type.shape (.ofInt .double count))
      emit (.binary .divide) [total, divisor]
    else pure total
  let result ← if keep then reshaped result (unitSizes axes shape) else pure result
  ctx.output result

end Rule

end GraphLowering
