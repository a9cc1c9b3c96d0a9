import GraphLowering.Target.Op
import GraphLowering.Checked

/-!
# Shape inference

The element type and the shape of a target node follow from its op and from the types of its
operands, or the op does not fit the operands. Inference looks at nothing else, so it gives the same
answer whenever it is asked.

* `TensorType` — an element type with a shape.
* `isPermutation` — whether a list can be the order of a tensor's axes.
* `windowOutput` — how many positions a window has along one axis.
* `Op.infer` — the type of an op's result.
-/

namespace GraphLowering.Target

/-- The type of a tensor: what its elements are and how they are laid out. -/
structure TensorType where
  element : ElementType
  shape : Shape
  deriving DecidableEq

/-- Marks numbers one after the other, up to the end or to the first that has no mark to set or whose
mark is set already. -/
def marksFresh : (marks : List Bool) → List Nat → Bool
  | _, [] => true
  | marks, i :: rest =>
    match marks[i]? with
    | some false => marksFresh (marks.set i true) rest
    | _ => false

/-- Whether `order` lists every number below `rank` once. -/
def isPermutation (order : List Nat) (rank : Nat) : Bool :=
  order.length = rank && marksFresh (List.replicate rank false) order

/-- Marking reaches the end if the numbers are distinct and none of them is marked. -/
theorem marksFresh_eq_true {marks : List Bool} {numbers : List Nat} :
    marksFresh marks numbers = true ↔
      numbers.Nodup ∧ ∀ i ∈ numbers, marks[i]? = some false := by
  induction numbers generalizing marks with
  | nil => simp [marksFresh]
  | cons i rest ih =>
    have hset : ∀ j, (marks.set i true)[j]? = some false ↔ j ≠ i ∧ marks[j]? = some false := by
      intro j
      by_cases hj : i = j
      · subst hj
        simp [List.getElem?_set]
      · simp [hj, Ne.symm hj]
    cases hi : marks[i]? with
    | none => simp [marksFresh, hi]
    | some mark =>
      cases mark with
      | true => simp [marksFresh, hi]
      | false =>
        simp only [marksFresh, hi, ih, hset, List.nodup_cons, List.mem_cons, forall_eq_or_imp,
          true_and]
        constructor
        · rintro ⟨hnodup, hrest⟩
          exact ⟨⟨fun hmem => (hrest i hmem).1 rfl, hnodup⟩, fun j hj => (hrest j hj).2⟩
        · rintro ⟨⟨hfresh, hnodup⟩, hrest⟩
          exact ⟨hnodup, fun j hj => ⟨fun heq => hfresh (heq ▸ hj), hrest j hj⟩⟩

theorem isPermutation_iff {order : List Nat} {rank : Nat} :
    isPermutation order rank = true ↔
      order.length = rank ∧ order.Nodup ∧ ∀ i ∈ order, i < rank := by
  have hmarks : ∀ i, (List.replicate rank false)[i]? = some false ↔ i < rank := by
    intro i
    simp [List.getElem?_replicate]
  simp only [isPermutation, Bool.and_eq_true, decide_eq_true_eq, marksFresh_eq_true, hmarks]

/-- The sizes of a shape off the listed axes. -/
def sizesOff (axes : List Nat) (shape : Shape) : Shape :=
  (shape.zipIdx.filter fun (_, axis) => !axes.contains axis).map Prod.fst

/-- Axes must be distinct and below the rank. -/
def checkAxes (op : String) (axes : List Nat) (rank : Nat) : Except Error Unit :=
  if axes.Nodup ∧ axes.all (· < rank) then .ok ()
  else .error (.mismatch (.axisList op axes rank))

/-- How many positions a window has along an axis of `size` elements with padding on both sides. -/
def windowOutput (op : String) (size window stride below above : Nat) : Except Error Nat :=
  let padded := size + below + above
  if stride = 0 ∨ window = 0 ∨ padded < window then
    .error (.mismatch (.windowFit op window stride padded))
  else do
    let steps ← quotient (← minus padded window) stride
    return steps + 1

/-- Channels-first data taken apart: the batch size, the number of channels, and the sizes of the
spatial axes, of which there is at least one. -/
def spatialParts (op : String) (shape : Shape) : Except Error (Nat × Nat × List Nat) :=
  match shape with
  | batch :: channels :: size :: sizes => .ok (batch, channels, size :: sizes)
  | _ => .error (.mismatch (.windowData op shape))

/-- Every list of window parameters has one entry for each spatial axis. -/
def checkWindow (op : String) (rank : Nat) (parameters : List (List Nat)) : Except Error Unit :=
  if parameters.all (·.length = rank) then .ok () else .error (.mismatch (.windowEntries op rank))

/-- The extent of a kernel of `size` elements that lie `dilation` apart. -/
def dilatedExtent (size dilation : Nat) : Nat := (size - 1) * dilation + 1

/-- How many elements a slice takes from one axis. -/
def sliceAxis (shape : Shape) (lower upper strides : List Nat) (axis : Nat) : Except Error Nat := do
  let size ← entryAt shape axis
  let lo ← entryAt lower axis
  let hi ← entryAt upper axis
  let stride ← entryAt strides axis
  if hi < lo ∨ size < hi ∨ stride = 0 then
    throw (.mismatch (.sliceRange lo hi stride axis shape))
  let length ← minus hi lo
  quotient (← minus (length + stride) 1) stride

/-- The size of a concatenation along `axis`; off that axis every operand agrees with the first. -/
def concatSize (head : TensorType) (axis : Nat) (operands : List TensorType) : Except Error Nat :=
  operands.foldlM
    (fun total operand => do
      if operand.element ≠ head.element ∨ operand.shape.set axis 0 ≠ head.shape.set axis 0 then
        throw (.mismatch
          (.concatOperand operand.element operand.shape head.element head.shape axis))
      return total + (← entryAt operand.shape axis))
    0

/-- The spatial sizes of a convolution. -/
def convolutionSizes (image kernel : List Nat) (w : ConvolutionWindow) :
    Except Error (List Nat) :=
  (List.range image.length).mapM fun d => do
    windowOutput "Convolution" (← entryAt image d)
      (dilatedExtent (← entryAt kernel d) (← entryAt w.dilations d)) (← entryAt w.strides d)
      (← entryAt w.below d) (← entryAt w.above d)

/-- The spatial sizes of a pooling op. -/
def poolSizes (op : String) (image : List Nat) (w : PoolWindow) : Except Error (List Nat) :=
  (List.range image.length).mapM fun d => do
    windowOutput op (← entryAt image d) (← entryAt w.window d) (← entryAt w.strides d)
      (← entryAt w.below d) (← entryAt w.above d)

/-- The type of a convolution of `data` with `filters`. -/
def inferConvolution (w : ConvolutionWindow) (data filters : TensorType) :
    Except Error TensorType := do
  let (batch, channels, image) ← spatialParts "Convolution" data.shape
  match filters.shape with
  | count :: depth :: kernel =>
    if kernel.length ≠ image.length ∨ depth ≠ channels then
      throw (.mismatch (.convolutionFilters filters.shape data.shape))
    if data.element ≠ filters.element then
      throw (.mismatch .convolutionElements)
    checkWindow "Convolution" image.length [w.strides, w.dilations, w.below, w.above]
    return ⟨data.element, batch :: count :: (← convolutionSizes image kernel w)⟩
  | _ => throw (.mismatch (.convolutionFilters filters.shape data.shape))

/-- The type of a pooling op over `data`. -/
def inferPool (op : String) (w : PoolWindow) (data : TensorType) : Except Error TensorType := do
  let (batch, channels, image) ← spatialParts op data.shape
  checkWindow op image.length [w.window, w.strides, w.below, w.above]
  return ⟨data.element, batch :: channels :: (← poolSizes op image w)⟩

/-- The type of a contraction of the last axis of `a` with the first axis of `b`. -/
def inferDot (a b : TensorType) : Except Error TensorType :=
  if a.element ≠ b.element then .error (.mismatch (.dotElements a.element b.element))
  else match a.shape.getLast?, b.shape with
    | some last, first :: rest =>
      if last ≠ first then .error (.mismatch (.dotAxes a.shape b.shape))
      else .ok ⟨a.element, a.shape.dropLast ++ rest⟩
    | _, _ => .error (.mismatch .dotRank)

/-- The type of a concatenation. -/
def inferConcat (axis : Nat) (operands : List TensorType) : Except Error TensorType :=
  match operands with
  | [] => .error (.mismatch .concatEmpty)
  | head :: _ => do
    if head.shape.length ≤ axis then
      throw (.mismatch (.concatAxis axis head.shape.length))
    return ⟨head.element, head.shape.set axis (← concatSize head axis operands)⟩

/-- The operand of an op that takes one. -/
def oneOperand (op : Op) : List TensorType → Except Error TensorType
  | [a] => .ok a
  | operands => .error (.mismatch (.operandCount op.name 1 operands.length))

/-- The operands of an op that takes two. -/
def twoOperands (op : Op) : List TensorType → Except Error (TensorType × TensorType)
  | [a, b] => .ok (a, b)
  | operands => .error (.mismatch (.operandCount op.name 2 operands.length))

/-- The type of an op's result on operands of the given types. Parameters and constants have no
operands to infer from and are refused. -/
def Op.infer (op : Op) (operands : List TensorType) : Except Error TensorType :=
  match op with
  | .parameter _ | .constant _ => .error (.mismatch (.leafOp op.name))
  | .binary _ => do
    let (a, b) ← twoOperands op operands
    if a = b then return a
    throw (.mismatch (.operandsDiffer op.name a.element a.shape b.element b.shape))
  | .unary _ => oneOperand op operands
  | .convert element => do
    let a ← oneOperand op operands
    return ⟨element, a.shape⟩
  | .dot => do
    let (a, b) ← twoOperands op operands
    inferDot a b
  | .broadcast shape axes => do
    let a ← oneOperand op operands
    checkAxes op.name axes shape.length
    if sizesOff axes shape ≠ a.shape then
      throw (.mismatch (.broadcast a.shape shape axes))
    return ⟨a.element, shape⟩
  | .reshape order shape => do
    let a ← oneOperand op operands
    if ¬ isPermutation order a.shape.length then
      throw (.mismatch (.notPermutation order a.shape.length))
    if a.shape.elements ≠ shape.elements then
      throw (.mismatch (.reshape a.shape shape))
    return ⟨a.element, shape⟩
  | .slice lower upper strides => do
    let a ← oneOperand op operands
    let rank := a.shape.length
    if lower.length ≠ rank ∨ upper.length ≠ rank ∨ strides.length ≠ rank then
      throw (.mismatch (.sliceRank rank))
    return ⟨a.element, ← (List.range rank).mapM (sliceAxis a.shape lower upper strides)⟩
  | .concat axis => inferConcat axis operands
  | .sum axes => do
    let a ← oneOperand op operands
    checkAxes op.name axes a.shape.length
    return ⟨a.element, sizesOff axes a.shape⟩
  | .softmax axes => do
    let a ← oneOperand op operands
    checkAxes op.name axes a.shape.length
    return a
  | .convolution w => do
    let (data, filters) ← twoOperands op operands
    inferConvolution w data filters
  | .maxPool w | .avgPool w _ => do
    let data ← oneOperand op operands
    inferPool op.name w data

end GraphLowering.Target
