import GraphLowering.Text.Listing

/-!
# Shapes

A shape lists the sizes of a tensor's axes, outermost first; the empty list is a scalar. Sizes are
natural numbers.

* `Shape.elements` — how many elements a tensor of this shape has.
* `Shape.text` — the sizes as they stand in messages, `2,3,4`.
-/

namespace GraphLowering

/-- The sizes of a tensor's axes, outermost first. -/
abbrev Shape := List Nat

namespace Shape

/-- The number of elements: the product of the sizes, one for a scalar. -/
def elements (shape : Shape) : Nat :=
  shape.foldr (· * ·) 1

/-- The sizes divided by commas. -/
def text (shape : Shape) : String :=
  Text.commaList shape

@[simp] theorem elements_nil : elements [] = 1 := rfl

@[simp] theorem elements_cons (n : Nat) (shape : Shape) :
    elements (n :: shape) = n * elements shape := rfl

@[simp] theorem elements_append (a b : Shape) : elements (a ++ b) = elements a * elements b := by
  induction a with
  | nil => simp
  | cons n a ih => simp [ih, Nat.mul_assoc]

end Shape

end GraphLowering
