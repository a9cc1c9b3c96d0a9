import GraphLowering.Rule.Elementwise

/-!
# Rules on the layout of a tensor

Lowering of the ops that pass a tensor on, make one, or lay its elements out under another shape.

* `transposed`, `reshaped` — a wire with its axes permuted, or with its elements read as another
  shape.
* `inferDims` — the shape that a list of dimensions asks for, with at most one of them left to be
  inferred.
* `identity`, `nothing`, `constant`, `reshape`, `transpose`, `squeeze` — the rules.
-/

namespace GraphLowering

open Target

/-- A wire with its axes permuted. -/
def transposed (ctx : Context) (x : Wire) (order : List Nat) : Emit Wire := do
  let shape ← shapeOf x
  match order.mapM fun axis => shape[axis]? with
  | none => throw (ctx.refuse (.orderRange order shape.length))
  | some target => emit (.reshape order target) [x]

/-- A wire with its elements read as another shape. -/
def reshaped (x : Wire) (shape : Shape) : Emit Wire := do
  let rank := (← shapeOf x).length
  emit (.reshape (List.range rank) shape) [x]

/-- The product of the given dimensions, and whether one of them is left to be inferred. The product
of every leading part has to be a 64-bit size, and only one dimension may be left. -/
def knownElements (ctx : Context) (dims : List Int) :
    List Int → (unknown : Bool) → (known : Nat) → Except Error (Bool × Nat)
  | [], unknown, known => .ok (unknown, known)
  | d :: rest, unknown, known =>
    if d = -1 then
      if unknown then .error (ctx.refuse (.twoUnknowns dims))
      else knownElements ctx dims rest true known
    else if d < 0 ∨ sizeLimit ≤ known * d.toNat then .error (ctx.refuse (.badDimension d dims))
    else knownElements ctx dims rest unknown (known * d.toNat)

/-- The size of a dimension that is left to be inferred: what dimensions with `known` elements leave
of a tensor with `elements` elements. Where none is left the size does not matter. -/
def inferredSize (ctx : Context) (dims : List Int) (elements : Nat) (unknown : Bool)
    (known : Nat) : Except Error Nat :=
  if ¬ unknown then .ok 1
  else if known = 0 then .error (ctx.refuse (.cannotInfer dims elements))
  else do
    if (← remainder elements known) ≠ 0 then
      throw (ctx.refuse (.cannotInfer dims elements))
    quotient elements known

/-- The shape that `dims` asks for, of a tensor with `elements` elements; a dimension `-1` takes
what the others leave. -/
def inferDims (ctx : Context) (dims : List Int) (elements : Nat) : Except Error Shape := do
  let (unknown, known) ← knownElements ctx dims dims false 1
  let size ← inferredSize ctx dims elements unknown known
  let shape : Shape := dims.map fun d => if d = -1 then size else d.toNat
  if shape.elements ≠ elements then
    throw (ctx.refuse (.cannotReshape elements shape))
  return shape

namespace Rule

/-- The operand itself. -/
def identity : Rule := fun ctx inputs => do
  ctx.needInputs 1
  ctx.output (← entryAt inputs 0)

/-- No node and no output; such a node only orders others. -/
def nothing : Rule := fun ctx _ => return ctx.noOutputs

/-- The tensor of attribute `value`; attribute `dtype`, where it is a type, has to agree with it. -/
def constant : Rule := fun ctx _ => do
  let value ← ctx.node.tensor "value"
  if let some (.type type) := ctx.node.attr? "dtype" then
    let element ← type.element
    if element ≠ value.type then
      throw (ctx.refuse (.constantType type value.type))
  ctx.output (← emitConstant value)

/-- The elements under the shape on input slot 1. -/
def reshape : Rule := fun ctx inputs => do
  ctx.needInputs 2
  let dims ← ctx.staticInts 1
  let x ← entryAt inputs 0
  let shape ← inferDims ctx dims (← shapeOf x).elements
  ctx.output (← reshaped x shape)

/-- The axes in the order on input slot 1. -/
def transpose : Rule := fun ctx inputs => do
  ctx.needInputs 2
  let permutation ← ctx.staticInts 1
  let x ← entryAt inputs 0
  let rank := (← shapeOf x).length
  if permutation.length ≠ rank then
    throw (ctx.refuse (.permutationRank permutation rank))
  let order ← permutation.mapM fun p => ctx.axis p rank
  ctx.output (← transposed ctx x order)

/-- The axes that a squeeze drops: those asked for, all of size one, or every axis of size one. -/
def squeezedAxes (ctx : Context) (requested : List Int) (shape : Shape) :
    Except Error (List Nat) :=
  if requested.isEmpty then
    return (List.range shape.length).filter fun axis => shape[axis]? = some 1
  else
    requested.mapM fun a => do
      let axis ← ctx.axis a shape.length
      if (← entryAt shape axis) ≠ 1 then
        throw (ctx.refuse (.cannotSqueeze axis shape))
      return axis

/-- The tensor without the axes of attribute `squeeze_dims`, or without all axes of size one. -/
def squeeze : Rule := fun ctx inputs => do
  ctx.needInputs 1
  let x ← entryAt inputs 0
  let shape ← shapeOf x
  let requested ← ctx.node.attrOfKind? "squeeze_dims" "list(int)" Attribute.ints?
  let dropped ← squeezedAxes ctx (requested.getD []) shape
  ctx.output (← reshaped x (sizesOff dropped shape))

end Rule

end GraphLowering
