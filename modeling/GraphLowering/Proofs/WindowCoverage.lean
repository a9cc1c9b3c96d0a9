import Mathlib
import GraphLowering.Proofs.SamePadding

/-!
# Windows over padding

A window may reach into the padding of an axis, but at none of its positions does it lie there alone:
it always holds an element of the axis. So a mean that leaves padding out is a mean of one element at
least.

* `windowPlaces` — the places of an axis under a window.
* `AxisRun.windowPlaces_nonempty` — there is one at every position of the window.
* `Plane.elementsUnder` — the elements of an image under a window.
* `pool_image`, `pool_lowers` — the image that a pooling rule reads, and what it makes of it.
* `pooled_windows_hold_elements` — no window that a pooling op averages over is empty.
-/

namespace GraphLowering

open Target

/-! ### Windows along an axis -/

/-- The places of an axis under the window of output `i`. The first window starts with the padding,
`below` places before the axis. -/
def windowPlaces (size extent stride below i : Nat) : Finset Nat :=
  (Finset.range size).filter fun x =>
    (i * stride : Int) - below ≤ x ∧ (x : Int) < (i * stride : Int) - below + extent

variable {policy : PaddingPolicy} {size extent stride below above outputs i : Nat}

/-- A window that starts before the end of an axis and ends behind its start holds an element of
it. -/
theorem windowPlaces_nonempty_of_bounds (hstart : i * stride < size + below)
    (hend : below < i * stride + extent) (hextent : 0 < extent) (hsize : 0 < size) :
    (windowPlaces size extent stride below i).Nonempty := by
  refine ⟨i * stride - below, ?_⟩
  simp only [windowPlaces, Finset.mem_filter, Finset.mem_range]
  zify at hstart hend ⊢
  omega

/-- The window of every output holds an element of the axis. -/
theorem AxisRun.windowPlaces_nonempty (hrun : AxisRun policy size extent stride below above outputs)
    (hsize : 0 < size) (hextent : 0 < extent) (hstride : 0 < stride)
    (hexact : policy = .same → SameAxis.Exact size extent stride) (hi : i < outputs) :
    (windowPlaces size extent stride below i).Nonempty := by
  obtain ⟨hpadding, hfits, rfl⟩ := hrun
  cases policy with
  | valid =>
    obtain ⟨rfl, rfl⟩ := Prod.mk.inj (Except.ok.inj hpadding)
    have hi' : i * stride ≤ size + 0 + 0 - extent :=
      (Nat.le_div_iff_mul_le hstride).mp (Nat.le_of_lt_succ hi)
    exact windowPlaces_nonempty_of_bounds (by omega) (by omega) hextent hsize
  | same =>
    obtain ⟨total, htotal, hpadding'⟩ := sameAxis_of_exact hstride (hexact rfl)
    obtain ⟨rfl, rfl⟩ := Prod.mk.inj (Except.ok.inj (hpadding.symm.trans hpadding'))
    rw [surplus_toNat hsize hstride] at htotal
    obtain ⟨-, houtputs⟩ := outputs_of_total hsize hextent hstride htotal
    have hsum : size + total / 2 + (total - total / 2) = size + total := by omega
    rw [hsum, houtputs] at hi
    -- The last window starts on the axis, and the padding before the axis is shorter than a window.
    have hi' : i * stride ≤ size - 1 :=
      (Nat.le_div_iff_mul_le hstride).mp (Nat.le_of_lt_succ hi)
    have hlast : stride * ((size - 1) / stride) ≤ size - 1 := Nat.mul_div_le _ _
    exact windowPlaces_nonempty_of_bounds (by omega) (by omega) hextent hsize

/-! ### Windows over an image -/

/-- The rows and columns of an image under the window of the output at a row and a column. -/
def Plane.elementsUnder (size extent stride below : Plane) (row column : Nat) :
    Finset (Nat × Nat) :=
  windowPlaces size.vertical extent.vertical stride.vertical below.vertical row ×ˢ
    windowPlaces size.horizontal extent.horizontal stride.horizontal below.horizontal column

theorem PlaneRun.elementsUnder_nonempty {size extent stride below above positions : Plane}
    (hrun : PlaneRun policy size extent stride below above positions) (hsize : size.Positive)
    (hextent : extent.Positive) (hstride : stride.Positive)
    (hexact : policy = .same → Plane.Exact size extent stride) {row column : Nat}
    (hrow : row < positions.vertical) (hcolumn : column < positions.horizontal) :
    (size.elementsUnder extent stride below row column).Nonempty :=
  (hrun.vertical.windowPlaces_nonempty hsize.1 hextent.1 hstride.1 (fun h => (hexact h).1)
    hrow).product
  (hrun.horizontal.windowPlaces_nonempty hsize.2 hextent.2 hstride.2 (fun h => (hexact h).2)
    hcolumn)

section Rules

variable {average : Bool} {ctx : Context} {ws : List Wire} {g h : Graph} {outs : Outputs}

theorem exists_image {type : TensorType} (format : DataFormat) (hrank : type.shape.length = 4) :
    ∃ image : ImageType, type = image.inFormat format := by
  obtain ⟨element, shape⟩ := type
  obtain ⟨a, b, c, d, rfl⟩ := List.length_eq_four.mp hrank
  cases format with
  | channelsLast => exact ⟨⟨element, a, d, ⟨b, c⟩⟩, rfl⟩
  | channelsFirst => exact ⟨⟨element, a, b, ⟨c, d⟩⟩, rfl⟩

/-- A pooling rule that succeeds has read an image from its first operand, and no other operand. -/
theorem pool_image (hrun : Rule.pool average ctx ws g = .ok outs h) :
    ∃ x rest format image, ws = x :: rest ∧ DataFormat.of ctx = .ok format ∧
      g.type? x = some (ImageType.inFormat image format) ∧
      Rule.pool average ctx [x] g = .ok outs h := by
  obtain ⟨_, -, hread⟩ := Step.lift_bind_eq_ok.mp hrun
  obtain ⟨format, hformat, hread⟩ := Step.lift_bind_eq_ok.mp hread
  obtain ⟨x, hx, hread⟩ := Step.lift_bind_eq_ok.mp hread
  obtain ⟨_, _, hneed, -⟩ := Step.bind_eq_ok.mp hread
  obtain ⟨shape, g', hshape, -⟩ := Step.bind_eq_ok.mp hneed
  obtain ⟨type, htype, -⟩ := exists_type?_of_shapeOf hshape
  obtain ⟨image, rfl⟩ := exists_image format ((needRank_eq_ok htype).mp hneed).1
  obtain ⟨rest, rfl⟩ : ∃ rest, ws = x :: rest := by
    cases ws with
    | nil => cases hx
    | cons y rest => exact ⟨rest, by rw [Except.ok.inj hx]⟩
  exact ⟨x, rest, format, image, rfl, hformat, htype, hrun⟩

end Rules

/-- What a pooling rule finds at its node and on its operand: an image in the format of the node, and
the window and the strides that the node lists for its spatial axes. -/
structure PoolReads (ctx : Context) (ws : List Wire) (g : Graph) (format : DataFormat)
    (image : ImageType) (policy : PaddingPolicy) (window stride : Plane) : Prop where
  formatOf : DataFormat.of ctx = .ok format
  operand : ∃ x, ws[0]? = some x ∧ g.type? x = some (image.inFormat format)
  policyOf : paddingPolicy ctx = .ok policy
  listsWindow : ctx.Lists "ksize" format window
  listsStride : ctx.Lists "strides" format stride

/-- A pooling rule that succeeds has lowered a window that moves over an image as its policy pads
it. -/
theorem pool_lowers {average : Bool} {ctx : Context} {ws : List Wire} {g h : Graph} {outs : Outputs}
    (hrun : Rule.pool average ctx ws g = .ok outs h) :
    ∃ format image policy window stride below above positions,
      PoolReads ctx ws g format image policy window stride ∧
      PlaneRun policy image.plane window stride below above positions ∧
      LowersWindow h format image (image.resized image.channels positions)
        (poolOp average window.toList stride.toList ⟨below.toList, above.toList⟩) ws outs := by
  obtain ⟨x, rest, format, image, rfl, hformat, hx, hrun⟩ := pool_image hrun
  have hoperands : WindowOperands g format image (.pool average) none [x] := .pool hx
  obtain ⟨policy, request, hpolicy, hrequest⟩ := Requests.of_rule hformat hoperands hrun
  obtain ⟨hslots, below, above, positions, hplane⟩ :=
    hrequest.planeRun hformat hpolicy hoperands hrun
  obtain ⟨outs', h', hrun', hlowers⟩ := hrequest.run hformat hpolicy hoperands hslots hplane
  obtain ⟨rfl, rfl⟩ := EStateM.Result.ok.inj (hrun.symm.trans hrun')
  cases hrequest with
  | @pool _ window stride _ hwindow hstride =>
    exact ⟨format, image, policy, window, stride, below, above, positions,
      ⟨hformat, ⟨x, rfl, hx⟩, hpolicy, hwindow, hstride⟩, hplane, hlowers⟩

/-- **No pooling window lies in padding alone.** Take an axis that has been padded by either policy,
of a positive size, under a window of a positive extent; under `same` the sizes are such that no signed
word overflows. Then the window of every output holds a place of the axis. So it is on both axes of an
image that a pooling rule lowers: the mean, which leaves padding out, is taken over one element or
more at every position. -/
theorem pooled_windows_hold_elements :
    (∀ policy image window strides padding, Padding.make policy image window strides = .ok padding →
      ∀ d size extent stride below above, AxisAt image window strides d size extent stride →
        padding.below[d]? = some below → padding.above[d]? = some above → 0 < size → 0 < extent →
        (policy = .same → SameAxis.Exact size extent stride) →
        ∀ op outputs, windowOutput op size extent stride below above = .ok outputs →
          ∀ i < outputs, (windowPlaces size extent stride below i).Nonempty) ∧
    ∀ ctx ws g outs h, Rule.pool true ctx ws g = .ok outs h →
      ∃ (format : DataFormat) (image : ImageType) (policy : PaddingPolicy)
        (window stride below above positions : Plane),
        PoolReads ctx ws g format image policy window stride ∧
        LowersWindow h format image (image.resized image.channels positions)
          (.avgPool ⟨window.toList, stride.toList, below.toList, above.toList⟩ false) ws outs ∧
        (image.plane.Positive → (policy = .same → Plane.Exact image.plane window stride) →
          ∀ row < positions.vertical, ∀ column < positions.horizontal,
            0 < (image.plane.elementsUnder window stride below row column).card) := by
  constructor
  · intro policy image window strides padding hmake d size extent stride below above haxis hbelow
      habove hsize hextent hexact op outputs houtput i hi
    obtain ⟨-, -, hpos⟩ := ranks_of_make hmake
    have hstride : 0 < stride := hpos stride (List.mem_of_getElem? haxis.stride)
    obtain ⟨below', above', hbelow', habove', hpadding⟩ := make_axis hmake haxis
    obtain rfl := Option.some.inj (hbelow.symm.trans hbelow')
    obtain rfl := Option.some.inj (habove.symm.trans habove')
    obtain ⟨hfits, houtputs⟩ := (windowOutput_eq_ok hstride hextent).mp houtput
    exact AxisRun.windowPlaces_nonempty ⟨hpadding, hfits, houtputs⟩ hsize hextent hstride hexact hi
  · intro ctx ws g outs h hrun
    obtain ⟨format, image, policy, window, stride, below, above, positions, hreads, hplane,
      hlowers⟩ := pool_lowers hrun
    refine ⟨format, image, policy, window, stride, below, above, positions, hreads, hlowers, ?_⟩
    intro hsize hexact row hrow column hcolumn
    exact (hplane.elementsUnder_nonempty hsize hreads.listsWindow.1 hreads.listsStride.1 hexact
      hrow hcolumn).card_pos

/-- A mean over a window of five rows and one column that moves by two rows and four columns. -/
def tallPool : Context :=
  ⟨{ name := "pool", op := "AvgPool", index := 1, inputs := 1,
     attrs := ⟨[("ksize", .ints [1, 5, 1, 1]), ("strides", .ints [1, 2, 4, 1]),
       ("padding", .text "SAME")]⟩ }, {}, []⟩

/-- An image of three rows and six columns. -/
def lowImage : Graph := .ofParameters [⟨.f32, [1, 3, 6, 1]⟩]

/-- The padding of the rows is almost as long as the window, and the columns need none. -/
theorem tallPool_holds_elements :
    (Padding.make .same [3, 6] [5, 1] [2, 4] = .ok ⟨[2, 0], [2, 0]⟩ ∧
      ∀ i < 2, (windowPlaces 3 5 2 2 i).Nonempty) ∧
    ∃ outs h below positions, Rule.pool true tallPool [0] lowImage = .ok outs h ∧
      ∀ row < Plane.vertical positions, ∀ column < Plane.horizontal positions,
        0 < (Plane.elementsUnder ⟨3, 6⟩ ⟨5, 1⟩ ⟨2, 4⟩ below row column).card := by
  have hexact : Plane.Exact ⟨3, 6⟩ ⟨5, 1⟩ ⟨2, 4⟩ :=
    ⟨SameAxis.exact_of_lt (by decide) (by decide) (by decide),
      SameAxis.exact_of_lt (by decide) (by decide) (by decide)⟩
  obtain ⟨haxes, hpool⟩ := pooled_windows_hold_elements
  constructor
  · have hmake : Padding.make .same [3, 6] [5, 1] [2, 4] = .ok ⟨[2, 0], [2, 0]⟩ := rfl
    exact ⟨hmake, haxes .same _ _ _ _ hmake 0 3 5 2 2 2 ⟨rfl, rfl, rfl⟩ rfl rfl (by decide)
      (by decide) (fun _ => hexact.1) "AvgPool" 2 rfl⟩
  · have hrun : ∃ outs h, Rule.pool true tallPool [0] lowImage = .ok outs h := ⟨_, _, rfl⟩
    obtain ⟨outs, h, hrun⟩ := hrun
    obtain ⟨format, ⟨element, batch, channels, rows, columns⟩, policy, ⟨p, q⟩, ⟨s, t⟩, below, above,
      positions, ⟨hformat, ⟨x, hx, himage⟩, hpolicy, ⟨-, _, _, hwindow⟩, -, _, _, hstride⟩, -,
      helements⟩ := hpool tallPool [0] lowImage outs h hrun
    obtain rfl : .channelsLast = format := Except.ok.inj hformat
    obtain rfl : 0 = x := Option.some.inj hx
    cases himage
    cases hwindow
    cases hstride
    exact ⟨outs, h, below, positions, hrun, helements (by decide) fun _ => hexact⟩

end GraphLowering
