import GraphLowering.Checked
import GraphLowering.Target.Infer

/-!
# Padding of window ops

A window op may pad its data on both sides of every spatial axis. Under the policy `valid` it never
does. Under `same` it pads so that an axis of `image` elements gives `⌈image / stride⌉` outputs, and
an odd element of padding goes above.

Sizes are read as signed 64-bit words: a size from `2 ^ 63` on is a negative number, division goes
toward zero, and an intermediate value that leaves the range of a word is a fault.

* `PaddingPolicy` — the two policies.
* `sameAxis` — the padding of one axis under the policy `same`.
* `Padding.make`, `Padding.makeDilated` — the padding of all axes.
-/

namespace GraphLowering

/-- How a window op is padded. -/
inductive PaddingPolicy where
  | same
  | valid
  deriving DecidableEq

/-- The policy with a given name. -/
def PaddingPolicy.ofName? : String → Option PaddingPolicy
  | "SAME" => some .same
  | "VALID" => some .valid
  | _ => none

/-- The number of padding elements on both sides of each spatial axis. -/
structure Padding where
  below : List Nat
  above : List Nat
  deriving DecidableEq

/-- The intermediate values of the `same` policy on one axis, in the order in which they are
computed. -/
structure SameAxis where
  reach : Int
  outputs : Int
  span : Int
  surplus : Int

namespace SameAxis

/-- The windows of the outputs reach from the first element over `stride * (outputs - 1) + kernel`
elements; what of it lies beyond the image is the surplus. -/
def of (image kernel stride : Int) : SameAxis :=
  let reach := image + stride - 1
  let outputs := reach.tdiv stride
  let span := stride * (outputs - 1)
  ⟨reach, outputs, span, span + kernel - image⟩

/-- Whether every value computed on the way is a signed 64-bit word. -/
def fits (axis : SameAxis) (image kernel stride : Int) : Bool :=
  [image + stride, axis.reach, axis.outputs, axis.outputs - 1, axis.span, axis.span + kernel,
    axis.surplus].all fits64

/-- The total padding: the surplus, if there is one. -/
def total (axis : SameAxis) : Nat := axis.surplus.toNat

end SameAxis

/-- The padding below and above one axis under the policy `same`. -/
def sameAxis (image kernel stride : Nat) : Except Error (Nat × Nat) :=
  if stride = 0 then .error (.internal (.zeroDivisor image))
  else
    let image := signed64 image
    let kernel := signed64 kernel
    let stride := signed64 stride
    let axis := SameAxis.of image kernel stride
    if axis.fits image kernel stride then .ok (axis.total / 2, axis.total - axis.total / 2)
    else .error (.internal .overflow)

/-- The extents of a kernel whose elements lie `dilations` apart; surplus entries are dropped. -/
def dilateKernel (kernel dilations : List Nat) : List Nat :=
  List.zipWith Target.dilatedExtent kernel dilations

namespace Padding

/-- The padding for an image under a kernel that moves by the given strides. -/
def make (policy : PaddingPolicy) (image kernel strides : List Nat) : Except Error Padding := do
  let rank := image.length
  if kernel.length ≠ rank ∨ strides.length ≠ rank then
    throw (.invalid (.windowRank rank kernel.length strides.length))
  if strides.contains 0 then
    throw (.invalid (.zeroStride strides))
  match policy with
  | .valid => return ⟨List.replicate rank 0, List.replicate rank 0⟩
  | .same =>
    let axes ← (List.range rank).mapM fun d => do
      sameAxis (← entryAt image d) (← entryAt kernel d) (← entryAt strides d)
    return ⟨axes.map Prod.fst, axes.map Prod.snd⟩

/-- The padding for an image under a kernel whose elements lie `dilations` apart. -/
def makeDilated (policy : PaddingPolicy) (image kernel strides dilations : List Nat) :
    Except Error Padding :=
  if dilations.length ≠ kernel.length then
    .error (.invalid (.dilationCount kernel.length dilations.length))
  else make policy image (dilateKernel kernel dilations) strides

end Padding

end GraphLowering
