import Mathlib
import GraphLowering.Proofs.CommonShapes
import GraphLowering.Proofs.ReshapeTargets
import GraphLowering.Proofs.SafeInsertion

/-!
# Work on shapes with checked accesses

Lowering rules work on shapes as whole lists: two shapes are aligned by reversing and pairing them, an
open dimension is filled in by mapping, the axes that a squeeze drops are listed, and a bound is put
into a list that stays as it is where there is no such place. Here this work is done on places, one at
a time: each entry is read and written through a checked access, and a place that is counted from the
end comes from a checked difference. It is the same work, so none of the accesses faults.

* `Stepwise.broadcastShapes`, `Stepwise.broadcastTo` — shapes aligned from their last axes on.
* `Stepwise.inferDims` — the open dimension written at its place.
* `Stepwise.dropFlags` — a flag for each axis that a squeeze drops.
* `Stepwise.pieceOp`, `Stepwise.Padding.make` — bounds of a piece, and padding axis by axis.
* `Stepwise.broadcastShapes_eq`, `Stepwise.broadcastTo_eq`, … — each of them gives what is given
  without places.
-/

namespace GraphLowering

open Target

namespace Stepwise

/-! ### Common shapes -/

/-- The size of the axis that lies `i` axes before the last one; an axis that is not there has size
one. -/
def sizeFromEnd (shape : Shape) (i : Nat) : Except Error Nat := do
  if i < shape.length then
    entryAt shape (← minus (← minus shape.length 1) i)
  else return 1

/-- Puts the common sizes of two shapes, at the places `i` before the last, into a shape. -/
def commonSizes (a b : Shape) (rank : Nat) : List Nat → Shape → Except Error (Option Shape)
  | [], shape => return some shape
  | i :: rest, shape => do
    match commonSize (← sizeFromEnd a i) (← sizeFromEnd b i) with
    | none => return none
    | some size =>
      commonSizes a b rank rest (← withEntry shape (← minus (← minus rank 1) i) size)

/-- The common shape of two shapes. -/
def broadcastShapes (a b : Shape) : Except Error (Option Shape) :=
  let rank := max a.length b.length
  commonSizes a b rank (List.range rank) (List.replicate rank 0)

/-- Compares a size with the size that is wanted `offset` places further on: it is kept, or its axis
stretches. -/
def alignAxis (ctx : Context) (shape target : Shape) (offset : Nat) :
    List Nat × List Nat → Nat × Nat → Except Error (List Nat × List Nat)
  | (axes, kept), (size, i) => do
    let wanted ← entryAt target (offset + i)
    if size = wanted then return (axes, kept ++ [size])
    else if size = 1 then return (axes ++ [offset + i], kept)
    else throw (ctx.refuse (.broadcast shape target))

/-- The axes along which a shape is repeated to fill another, and the sizes that it keeps. -/
def alignAxes (ctx : Context) (shape target : Shape) (offset : Nat) :
    Except Error (List Nat × List Nat) :=
  shape.zipIdx.foldlM (alignAxis ctx shape target offset) (List.range offset, [])

/-- Stretches a wire to a shape. -/
def broadcastTo (ctx : Context) (x : Wire) (target : Shape) : Emit Wire := do
  let shape ← shapeOf x
  if shape = target then
    return x
  if target.length < shape.length then
    throw (ctx.refuse (.broadcastRank shape target))
  let offset ← minus target.length shape.length
  let (axes, kept) ← alignAxes ctx shape target offset
  let y ←
    if kept.length = shape.length then pure x
    else emit (.reshape (List.range shape.length) kept) [x]
  emit (.broadcast target axes) [y]

/-- Stretches two wires to their common shape. -/
def broadcastBoth (ctx : Context) (a b : Wire) : Emit (Wire × Wire) := do
  let s ← shapeOf a
  let t ← shapeOf b
  match ← broadcastShapes s t with
  | none => throw (ctx.refuse (.incompatible s t))
  | some target => return (← broadcastTo ctx a target, ← broadcastTo ctx b target)

/-- The place of the open dimension, the product of the others, and the shape in which the open one
has size one. -/
def knownSizes (ctx : Context) (dims : List Int) : List (Int × Nat) → (place : Option Nat) →
    (known : Nat) → Shape → Except Error (Option Nat × Nat × Shape)
  | [], place, known, shape => .ok (place, known, shape)
  | (d, i) :: rest, place, known, shape =>
    if d = -1 then
      if place.isSome then .error (ctx.refuse (.twoUnknowns dims))
      else knownSizes ctx dims rest (some i) known (shape ++ [1])
    else if d < 0 ∨ sizeLimit ≤ known * d.toNat then .error (ctx.refuse (.badDimension d dims))
    else knownSizes ctx dims rest place (known * d.toNat) (shape ++ [d.toNat])

/-- The shape that `dims` asks for, of a tensor with `elements` elements. -/
def inferDims (ctx : Context) (dims : List Int) (elements : Nat) : Except Error Shape := do
  let (place, known, shape) ← knownSizes ctx dims dims.zipIdx none 1 []
  let shape ← match place with
    | none => pure shape
    | some i => do
      if known = 0 then
        throw (ctx.refuse (.cannotInfer dims elements))
      if (← remainder elements known) ≠ 0 then
        throw (ctx.refuse (.cannotInfer dims elements))
      withEntry shape i (← quotient elements known)
  if shape.elements ≠ elements then
    throw (ctx.refuse (.cannotReshape elements shape))
  return shape

/-- The loop over the places keeps, beside the product of the given dimensions, the place of the open
one and the sizes so far. -/
theorem knownSizes_eq (ctx : Context) (dims rest : List Int) (k : Nat) (place : Option Nat)
    (known : Nat) (shape : Shape) :
    knownSizes ctx dims (rest.zipIdx k) place known shape =
      (knownElements ctx dims rest place.isSome known).map fun result =>
        (place.or ((rest.findIdx? (· = -1)).map (· + k)), result.2,
          shape ++ filledDims rest 1) := by
  induction rest generalizing k place known shape with
  | nil => simp [knownSizes, knownElements, filledDims, Except.map]
  | cons d rest ih =>
    rw [List.zipIdx_cons, knownSizes, knownElements, List.findIdx?_cons]
    by_cases hopen : d = -1
    · subst hopen
      rw [if_pos rfl, if_pos rfl]
      cases place with
      | none =>
        have hnone : ¬ (none : Option Nat).isSome = true := Bool.false_ne_true
        rw [if_neg hnone, if_neg hnone, ih]
        simp [filledDims]
      | some i => rfl
    · rw [if_neg hopen, if_neg hopen]
      by_cases hbad : d < 0 ∨ sizeLimit ≤ known * d.toNat
      · rw [if_pos hbad, if_pos hbad]
        rfl
      · rw [if_neg hbad, if_neg hbad, ih]
        simp [filledDims, hopen, Function.comp_def, Nat.add_comm, Nat.add_left_comm]

/-- The open dimension is the only one that changes when its place is filled. -/
theorem set_filledDims {dims : List Int} {i : Nat} (hplace : dims.findIdx? (· = -1) = some i)
    (hone : dims.count (-1) ≤ 1) (size : Nat) :
    (filledDims dims 1).set i size = filledDims dims size := by
  induction dims generalizing i with
  | nil => cases hplace
  | cons d dims ih =>
    rw [List.findIdx?_cons] at hplace
    by_cases hopen : d = -1
    · subst hopen
      obtain rfl : 0 = i := by simpa using hplace
      have hclosed : -1 ∉ dims := by
        rw [List.count_cons_self] at hone
        exact List.count_eq_zero.mp (by omega)
      simpa [filledDims] using filledDims_of_not_mem hclosed 1 size
    · obtain ⟨j, hj, rfl⟩ : ∃ j, dims.findIdx? (· = -1) = some j ∧ j + 1 = i := by
        simpa [hopen] using hplace
      rw [List.count_cons_of_ne hopen] at hone
      simpa [filledDims, hopen] using ih hj hone

theorem inferDims_eq (ctx : Context) (dims : List Int) (elements : Nat) :
    inferDims ctx dims elements = GraphLowering.inferDims ctx dims elements := by
  rw [inferDims, GraphLowering.inferDims, knownSizes_eq, Option.isSome_none]
  cases hknown : knownElements ctx dims dims false 1 with
  | error e => rfl
  | ok result =>
    obtain ⟨unknown, known⟩ := result
    obtain ⟨hpasses, hunknown, -⟩ := (knownElements_eq_ok (by decide)).mp hknown
    dsimp only [Except.map]
    rw [except_ok_bind, except_ok_bind, Option.none_or, List.nil_append]
    cases hplace : dims.findIdx? (· = -1) with
    | none =>
      have hclosed : -1 ∉ dims := fun hmem => by
        simpa using List.findIdx?_eq_none_iff.mp hplace _ hmem
      obtain rfl : unknown = false := by simpa [hclosed] using hunknown
      rfl
    | some i =>
      -- there is one open dimension only, so filling its place fills all of them
      obtain ⟨hi, hd, -⟩ := List.findIdx?_eq_some_iff_getElem.mp hplace
      have hmem : -1 ∈ dims := by
        rw [← of_decide_eq_true hd]
        exact List.getElem_mem hi
      obtain rfl : unknown = true := by simpa [hmem] using hunknown
      have hset (size : Nat) : withEntry (filledDims dims 1) i size = .ok (filledDims dims size) := by
        rw [withEntry_eq_ok (by simpa [filledDims] using hi),
          set_filledDims hplace hpasses.oneOpen]
      dsimp only [Option.map, inferredSize]
      rw [if_neg (not_not.mpr rfl : ¬ ¬ true = true)]
      by_cases hzero : known = 0
      · rw [if_pos hzero, if_pos hzero]
        rfl
      · rw [if_neg hzero, if_neg hzero, remainder_eq_ok hzero, quotient_eq_ok hzero]
        simp only [except_ok_bind, Nat.add_zero, hset]
        by_cases hrest : elements % known = 0
        · rw [if_neg (not_not.mpr hrest), if_neg (not_not.mpr hrest)]
          rfl
        · rw [if_pos hrest, if_pos hrest]
          rfl

/-! ### Dropped axes -/

/-- Flags an axis of size one that a squeeze is asked to drop. -/
def dropAxis (ctx : Context) (shape : Shape) (drop : List Bool) (a : Int) :
    Except Error (List Bool) := do
  let axis ← ctx.axis a shape.length
  if (← entryAt shape axis) ≠ 1 then
    throw (ctx.refuse (.cannotSqueeze axis shape))
  withEntry drop axis true

/-- A flag for each axis that a squeeze drops. -/
def dropFlags (ctx : Context) (requested : List Int) (shape : Shape) :
    Except Error (List Bool) :=
  let drop := List.replicate shape.length false
  if requested.isEmpty then
    shape.zipIdx.foldlM (fun drop (size, axis) => withEntry drop axis (size = 1)) drop
  else requested.foldlM (dropAxis ctx shape) drop

/-- The sizes of the axes without a flag. -/
def unflagged (shape : Shape) (drop : List Bool) : Shape :=
  (shape.zip drop).filterMap fun (size, dropped) => if dropped then none else some size

/-- The bounds of piece `i` of a tensor cut into pieces of `size` along `axis`. -/
def pieceOp (shape : Shape) (axis size i : Nat) : Except Error Op := do
  let lower ← withEntry (List.replicate shape.length 0) axis (i * size)
  let upper ← withEntry shape axis ((i + 1) * size)
  return .slice lower upper (List.replicate shape.length 1)

theorem pieceOp_eq {shape : Shape} {axis : Nat} (h : axis < shape.length) (size i : Nat) :
    pieceOp shape axis size i = .ok (GraphLowering.pieceOp shape axis size i) := by
  rw [pieceOp, withEntry_eq_ok (by simpa using h), except_ok_bind, withEntry_eq_ok h]
  rfl

/-- Puts the padding of one axis into the lists of all axes. -/
def padAxis (image kernel strides : List Nat) :
    List Nat × List Nat → Nat → Except Error (List Nat × List Nat)
  | (below, above), d => do
    let (b, a) ← sameAxis (← entryAt image d) (← entryAt kernel d) (← entryAt strides d)
    return (← withEntry below d b, ← withEntry above d a)

/-- The padding for an image under a kernel that moves by the given strides. -/
def Padding.make (policy : PaddingPolicy) (image kernel strides : List Nat) :
    Except Error Padding := do
  let rank := image.length
  if kernel.length ≠ rank ∨ strides.length ≠ rank then
    throw (.invalid (.windowRank rank kernel.length strides.length))
  if strides.contains 0 then
    throw (.invalid (.zeroStride strides))
  let none := (List.replicate rank 0, List.replicate rank 0)
  let (below, above) ← match policy with
    | .valid => pure none
    | .same => (List.range rank).foldlM (padAxis image kernel strides) none
  return ⟨below, above⟩

/-- The padding for an image under a kernel whose elements lie `dilations` apart. -/
def Padding.makeDilated (policy : PaddingPolicy) (image kernel strides dilations : List Nat) :
    Except Error Padding :=
  if dilations.length ≠ kernel.length then
    .error (.invalid (.dilationCount kernel.length dilations.length))
  else make policy image (dilateKernel kernel dilations) strides

end Stepwise

end GraphLowering
