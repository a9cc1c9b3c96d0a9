import GraphLowering.Rule.Dense
import GraphLowering.Window.Padding

/-!
# Window ops

Convolution and pooling over images. A host image keeps its channels last by default and its filters
as `[H, W, I, O]`; target window ops want the channels first, so data is transposed on its way in
and back on its way out.

* `spatialEntries` — the entries of an attribute that belong to the spatial axes.
* `Rule.convolve`, `Rule.pool` — the rules.
-/

namespace GraphLowering

open Target

/-- The entries of a four-entry attribute that belong to the spatial axes, all of them positive. -/
def spatialEntries (ctx : Context) (key : String) (format : DataFormat) :
    Except Error (List Nat) := do
  let values ← ctx.node.ints key
  if values.length ≠ 4 then
    throw (ctx.refuse (.entryCount key values))
  format.spatialAxes.mapM fun axis => do
    let value ← entryAt values axis
    if value ≤ 0 then
      throw (ctx.refuse (.entryNotPositive key values))
    return value.toNat

/-- The policy of attribute `padding`. -/
def paddingPolicy (ctx : Context) : Except Error PaddingPolicy := do
  let name ← ctx.node.text "padding"
  match PaddingPolicy.ofName? name with
  | some policy => return policy
  | none => throw (ctx.refuse (.padding name))

/-- Rank-4 data with its channels brought to the front. -/
def toChannelsFirst (ctx : Context) (x : Wire) : DataFormat → Emit Wire
  | .channelsLast => transposed ctx x [0, 3, 1, 2]
  | .channelsFirst => pure x

/-- Rank-4 data with its channels brought back to their place. -/
def ofChannelsFirst (ctx : Context) (x : Wire) : DataFormat → Emit Wire
  | .channelsLast => transposed ctx x [0, 2, 3, 1]
  | .channelsFirst => pure x

/-- The spatial sizes of channels-first data or of filters laid out in the same way. -/
def spatialSizes (x : Wire) : Emit (List Nat) := do
  entriesFrom (← shapeOf x) 2

namespace Rule

/-- A convolution of an image with filters. -/
def convolve : Rule := fun ctx inputs => do
  ctx.needInputs 2
  let format ← DataFormat.of ctx
  let data ← entryAt inputs 0
  let filters ← entryAt inputs 1
  needRank ctx "Conv2D input" data 4
  needRank ctx "Conv2D filter" filters 4
  let strides ← spatialEntries ctx "strides" format
  let dilations ←
    if (ctx.node.attr? "dilations").isSome then spatialEntries ctx "dilations" format
    else pure [1, 1]
  let policy ← paddingPolicy ctx
  let data ← toChannelsFirst ctx data format
  let filters ← transposed ctx filters [3, 2, 0, 1]
  let image ← spatialSizes data
  let kernel ← spatialSizes filters
  let padding ← Padding.makeDilated policy image kernel strides dilations
  let result ← emit (.convolution ⟨strides, dilations, padding.below, padding.above⟩)
    [data, filters]
  ctx.output (← ofChannelsFirst ctx result format)

/-- The greatest element, or with `average` the mean, under a window that moves over an image.
Padding does not count toward a mean. -/
def pool (average : Bool) : Rule := fun ctx inputs => do
  ctx.needInputs 1
  let format ← DataFormat.of ctx
  let x ← entryAt inputs 0
  needRank ctx "pooling input" x 4
  let window ← spatialEntries ctx "ksize" format
  let strides ← spatialEntries ctx "strides" format
  let policy ← paddingPolicy ctx
  let x ← toChannelsFirst ctx x format
  let image ← spatialSizes x
  let padding ← Padding.make policy image window strides
  let moved : PoolWindow := ⟨window, strides, padding.below, padding.above⟩
  let result ← emit (if average then .avgPool moved false else .maxPool moved) [x]
  ctx.output (← ofChannelsFirst ctx result format)

end Rule

end GraphLowering
