import Mathlib
import GraphLowering.Proofs.WindowSizes

/-!
# The padding of the policy `same`

Padding is computed axis by axis. Under the policy `same` an axis gets as much padding as the windows
of `⌈size / stride⌉` outputs reach beyond it, in two halves that differ by one element at most. With
less padding there would be fewer outputs.

* `AxisAt` — the entries of three lists of sizes that belong to one axis.
* `make_eq_mapM`, `make_axis` — the padding of all axes is the padding of each.
* `le_of_outputs` — how much padding an axis needs for a number of outputs.
* `SamePadded` — the padding of an axis is exact, balanced and least.
* `same_padding_exact_and_least` — so it is on all axes, for sizes below `2 ^ 62`.
-/

namespace GraphLowering

open Target

/-! ### Axis by axis -/

/-- The size of an image, the extent of its kernel and the stride along one axis. -/
structure AxisAt (image kernel strides : List Nat) (d size extent stride : Nat) : Prop where
  size : image[d]? = some size
  extent : kernel[d]? = some extent
  stride : strides[d]? = some stride

section Make

variable {policy : PaddingPolicy} {image kernel strides : List Nat} {padding : Padding}
  {d size extent stride : Nat}

theorem entries_eq_ok {α : Type} {f : Nat → Nat → Nat → Except Error α} {a : α} :
    (do f (← entryAt image d) (← entryAt kernel d) (← entryAt strides d)) = .ok a ↔
      ∃ size extent stride, AxisAt image kernel strides d size extent stride ∧
        f size extent stride = .ok a := by
  simp only [except_bind_eq_ok, entryAt_eq_ok_iff]
  constructor
  · rintro ⟨size, hsize, extent, hextent, stride, hstride, ha⟩
    exact ⟨size, extent, stride, ⟨hsize, hextent, hstride⟩, ha⟩
  · rintro ⟨size, extent, stride, ⟨hsize, hextent, hstride⟩, ha⟩
    exact ⟨size, hsize, extent, hextent, stride, hstride, ha⟩

theorem exists_axisAt (hkernel : kernel.length = image.length)
    (hstrides : strides.length = image.length) (hd : d < image.length) :
    ∃ size extent stride, AxisAt image kernel strides d size extent stride :=
  ⟨_, _, _, List.getElem?_eq_getElem hd, List.getElem?_eq_getElem (hkernel ▸ hd),
    List.getElem?_eq_getElem (hstrides ▸ hd)⟩

/-- The lists of an image that has been padded have an entry for each axis, and no stride is zero. -/
theorem ranks_of_make (h : Padding.make policy image kernel strides = .ok padding) :
    kernel.length = image.length ∧ strides.length = image.length ∧ ∀ s ∈ strides, 0 < s := by
  unfold Padding.make at h
  dsimp only at h
  split at h
  case isTrue => cases h
  case isFalse hranks =>
    split at h
    case isTrue => cases h
    case isFalse hzero =>
      rw [not_or, not_not, not_not] at hranks
      refine ⟨hranks.1, hranks.2, fun s hs => Nat.pos_of_ne_zero ?_⟩
      rintro rfl
      exact hzero (by simpa using hs)

/-- The padding of an axis, read from the lists. -/
def paddingAt (policy : PaddingPolicy) (image kernel strides : List Nat) (d : Nat) :
    Except Error (Nat × Nat) := do
  policy.axis (← entryAt image d) (← entryAt kernel d) (← entryAt strides d)

theorem make_eq_mapM (hkernel : kernel.length = image.length)
    (hstrides : strides.length = image.length) (hpos : ∀ s ∈ strides, 0 < s) :
    Padding.make policy image kernel strides = do
      let axes ← (List.range image.length).mapM (paddingAt policy image kernel strides)
      return ⟨axes.map Prod.fst, axes.map Prod.snd⟩ := by
  have hranks : ¬ (kernel.length ≠ image.length ∨ strides.length ≠ image.length) := by
    rw [not_or, not_not, not_not]
    exact ⟨hkernel, hstrides⟩
  have hzero : ¬ strides.contains 0 = true := fun h => (hpos 0 (by simpa using h)).false
  unfold Padding.make
  rw [if_neg hranks, if_neg hzero]
  cases policy with
  | same => rfl
  | valid =>
    have hzeros : (List.range image.length).mapM (paddingAt .valid image kernel strides) =
        .ok ((List.range image.length).map fun _ => (0, 0)) := by
      rw [except_mapM_eq_ok, List.forall₂_map_right_iff, List.forall₂_same]
      intro d hd
      obtain ⟨size, extent, stride, haxis⟩ := exists_axisAt hkernel hstrides (List.mem_range.mp hd)
      exact entries_eq_ok.mpr ⟨size, extent, stride, haxis, rfl⟩
    rw [hzeros, except_ok_bind]
    simp [List.map_const']

/-- Lists with an entry for each axis and no stride of zero can be padded if every axis can. -/
theorem exists_make (hkernel : kernel.length = image.length)
    (hstrides : strides.length = image.length) (hpos : ∀ s ∈ strides, 0 < s)
    (haxes : ∀ d size extent stride, AxisAt image kernel strides d size extent stride →
      ∃ axis, policy.axis size extent stride = .ok axis) :
    ∃ padding, Padding.make policy image kernel strides = .ok padding ∧
      padding.below.length = image.length ∧ padding.above.length = image.length := by
  have haxes' : ∀ d ∈ List.range image.length,
      ∃ axis, paddingAt policy image kernel strides d = .ok axis := by
    intro d hd
    obtain ⟨size, extent, stride, haxis⟩ := exists_axisAt hkernel hstrides (List.mem_range.mp hd)
    obtain ⟨axis, hpadding⟩ := haxes d size extent stride haxis
    exact ⟨axis, entries_eq_ok.mpr ⟨size, extent, stride, haxis, hpadding⟩⟩
  obtain ⟨axes, hok⟩ := exists_except_mapM haxes'
  have hlength : axes.length = image.length := by
    rw [← (except_mapM_eq_ok.mp hok).length_eq, List.length_range]
  rw [make_eq_mapM hkernel hstrides hpos, hok]
  exact ⟨_, rfl, by simp [hlength], by simp [hlength]⟩

/-- The padding of an axis is what the policy gives it. -/
theorem make_axis (h : Padding.make policy image kernel strides = .ok padding)
    (haxis : AxisAt image kernel strides d size extent stride) :
    ∃ below above, padding.below[d]? = some below ∧ padding.above[d]? = some above ∧
      policy.axis size extent stride = .ok (below, above) := by
  obtain ⟨hkernel, hstrides, hpos⟩ := ranks_of_make h
  rw [make_eq_mapM hkernel hstrides hpos] at h
  obtain ⟨axes, haxes, h⟩ := except_bind_eq_ok.mp h
  obtain rfl := Except.ok.inj h
  have hd : d < image.length := (List.getElem?_eq_some_iff.mp haxis.size).1
  have hrel := forall₂_getElem? (except_mapM_eq_ok.mp haxes) d
  rw [List.getElem?_range hd] at hrel
  generalize hentry : axes[d]? = entry at hrel
  obtain @⟨_, ⟨below, above⟩, hpadding⟩ := hrel
  obtain ⟨_, _, _, ⟨hsize, hextent, hstride⟩, hpadding⟩ := entries_eq_ok.mp hpadding
  obtain rfl := Option.some.inj (hsize.symm.trans haxis.size)
  obtain rfl := Option.some.inj (hextent.symm.trans haxis.extent)
  obtain rfl := Option.some.inj (hstride.symm.trans haxis.stride)
  exact ⟨below, above, by simp [hentry], by simp [hentry], hpadding⟩

end Make

/-! ### The least padding -/

variable {size extent stride : Nat}

theorem SameAxis.exact_of_lt (hsize : size < 2 ^ 62) (hextent : extent < 2 ^ 62)
    (hstride : stride < 2 ^ 62) : SameAxis.Exact size extent stride := by
  have hlimit : (2 : Nat) ^ 62 < signedLimit := by decide
  exact ⟨by omega, by omega, by omega, SameAxis.not_overflows hsize hextent hstride⟩

/-- Without overflow the window of an axis and its padding stay below the limit of a word. -/
theorem SameAxis.Exact.total_lt (hexact : SameAxis.Exact size extent stride) (hstride : 0 < stride)
    {total : Nat}
    (htotal : total = (stride * ((size ⌈/⌉ stride : Nat) - 1 : Int) + extent - size).toNat) :
    size + total < signedLimit := by
  have hfits := hexact.fits
  rw [SameAxis.Overflows, Bool.not_eq_false, signed64_of_lt_signedLimit hexact.image_lt,
    signed64_of_lt_signedLimit hexact.kernel_lt, signed64_of_lt_signedLimit hexact.stride_lt]
    at hfits
  rw [← SameAxis.surplus_eq size extent hstride] at htotal
  have hsurplus : (SameAxis.of size extent stride).surplus =
      (SameAxis.of size extent stride).span + extent - size := rfl
  simp only [SameAxis.fits, List.all_cons, List.all_nil, Bool.and_true, Bool.and_eq_true,
    fits64_iff] at hfits
  have hsize := hexact.image_lt
  unfold signedLimit at *
  omega

/-- Padding that gives `⌈size / stride⌉` outputs or more reaches as far as their windows do. -/
theorem le_of_outputs {op : String} {below above outputs : Nat} (hsize : 0 < size)
    (hextent : 0 < extent) (hstride : 0 < stride)
    (hrun : windowOutput op size extent stride below above = .ok outputs)
    (houtputs : size ⌈/⌉ stride ≤ outputs) :
    stride * ((size - 1) / stride) + extent ≤ size + (below + above) := by
  obtain ⟨hfits, rfl⟩ := (windowOutput_eq_ok hstride hextent).mp hrun
  rw [ceilDiv_eq_succ hsize hstride, Nat.add_le_add_iff_right, Nat.le_div_iff_mul_le hstride,
    Nat.mul_comm] at houtputs
  omega

/-- The padding of an axis under the policy `same`: computed without overflow, what the windows of
`⌈size / stride⌉` outputs reach beyond the axis, in two halves of which the upper one takes an odd
element, and the least padding with that many outputs. -/
structure SamePadded (size extent stride below above : Nat) : Prop where
  exact : SameAxis.Exact size extent stride
  total : ((below + above : Nat) : Int) =
    max 0 (stride * ((size ⌈/⌉ stride : Nat) - 1 : Int) + extent - size)
  half : below = (below + above) / 2
  balanced : above = below ∨ above = below + 1
  padded : size + below + above < signedLimit
  least : 0 < size → 0 < extent → ∀ op, IsLeast
    {total | ∃ b a outputs, b + a = total ∧ windowOutput op size extent stride b a = .ok outputs ∧
      size ⌈/⌉ stride ≤ outputs} (below + above)
  outputs : 0 < size → 0 < extent → ∀ op b a, b + a = below + above →
    windowOutput op size extent stride b a = .ok (size ⌈/⌉ stride)

theorem windowOutput_of_total {op : String} {below above total : Nat} (hsize : 0 < size)
    (hextent : 0 < extent) (hstride : 0 < stride)
    (htotal : total = stride * ((size - 1) / stride) + extent - size)
    (hsum : below + above = total) :
    windowOutput op size extent stride below above = .ok (size ⌈/⌉ stride) := by
  obtain ⟨hfits, houtputs⟩ := outputs_of_total hsize hextent hstride htotal
  have hpadded : size + below + above = size + total := by omega
  rw [windowOutput_eq_ok hstride hextent, hpadded, houtputs]
  exact ⟨hfits, ceilDiv_eq_succ hsize hstride⟩

theorem samePadded_of_exact (hstride : 0 < stride) (hexact : SameAxis.Exact size extent stride) :
    ∃ below above, PaddingPolicy.same.axis size extent stride = .ok (below, above) ∧
      SamePadded size extent stride below above := by
  obtain ⟨total, htotal, hpadding⟩ := sameAxis_of_exact hstride hexact
  have hlimit := hexact.total_lt hstride htotal
  have hsum : total / 2 + (total - total / 2) = total := by omega
  have houtputs : 0 < size → 0 < extent → ∀ op b a, b + a = total →
      windowOutput op size extent stride b a = .ok (size ⌈/⌉ stride) := by
    intro hsize hextent op b a hba
    rw [surplus_toNat hsize hstride] at htotal
    exact windowOutput_of_total hsize hextent hstride htotal hba
  refine ⟨_, _, hpadding, hexact, ?_, by omega, by omega, by omega, ?_, ?_⟩
  · rw [hsum, htotal, Int.toNat_eq_max, max_comm]
  · intro hsize hextent op
    rw [hsum]
    refine ⟨⟨0, total, _, Nat.zero_add total, houtputs hsize hextent op _ _ (Nat.zero_add total),
      le_rfl⟩, ?_⟩
    rintro _ ⟨b, a, outputs, rfl, hrun, hle⟩
    have hreach := le_of_outputs hsize hextent hstride hrun hle
    rw [surplus_toNat hsize hstride] at htotal
    omega
  · rw [hsum]
    exact houtputs

/-- **The padding of `same` is exact, balanced and least.** Take lists with an entry for each axis,
all below `2 ^ 62`, and no stride of zero. Then padding succeeds, and no number that it goes through
leaves the range of a signed word. Along each axis it is what the windows of `⌈size / stride⌉` outputs
reach beyond the image, split in two halves of which the upper one may have one element more. If
neither the axis nor the window is empty, it is the least padding with which the window has
`⌈size / stride⌉` positions or more, and then it has just so many. -/
theorem same_padding_exact_and_least {image kernel strides : List Nat}
    (hkernel : kernel.length = image.length) (hstrides : strides.length = image.length)
    (hbound : ∀ n ∈ image ++ kernel ++ strides, n < 2 ^ 62) (hpos : ∀ s ∈ strides, 1 ≤ s) :
    ∃ padding, Padding.make .same image kernel strides = .ok padding ∧
      padding.below.length = image.length ∧ padding.above.length = image.length ∧
      ∀ d size extent stride, AxisAt image kernel strides d size extent stride →
        ∃ below above, padding.below[d]? = some below ∧ padding.above[d]? = some above ∧
          SamePadded size extent stride below above := by
  have haxes : ∀ d size extent stride, AxisAt image kernel strides d size extent stride →
      ∃ below above, PaddingPolicy.same.axis size extent stride = .ok (below, above) ∧
        SamePadded size extent stride below above := by
    rintro d size extent stride ⟨hsize, hextent, hstride⟩
    have hsize := hbound size (by simp [List.mem_of_getElem? hsize])
    have hextent := hbound extent (by simp [List.mem_of_getElem? hextent])
    have hstride' := hbound stride (by simp [List.mem_of_getElem? hstride])
    exact samePadded_of_exact (hpos stride (List.mem_of_getElem? hstride))
      (SameAxis.exact_of_lt hsize hextent hstride')
  obtain ⟨padding, hmake, hbelow, habove⟩ := exists_make hkernel hstrides hpos
    fun d size extent stride haxis => by
      obtain ⟨below, above, hpadding, -⟩ := haxes d size extent stride haxis
      exact ⟨_, hpadding⟩
  refine ⟨padding, hmake, hbelow, habove, fun d size extent stride haxis => ?_⟩
  obtain ⟨below, above, hbelow, habove, hpadding⟩ := make_axis hmake haxis
  obtain ⟨below', above', hpadding', hpadded⟩ := haxes d size extent stride haxis
  obtain ⟨rfl, rfl⟩ := Prod.mk.inj (Except.ok.inj (hpadding.symm.trans hpadding'))
  exact ⟨below, above, hbelow, habove, hpadded⟩

/-- An odd padding, one at the end of which a stride is cut short, and a window that is smaller than
its stride. -/
theorem unevenAxes_padded :
    Padding.make .same [10, 7, 10] [3, 4, 1] [2, 3, 2] = .ok ⟨[0, 1, 0], [1, 2, 0]⟩ ∧
      SamePadded 10 3 2 0 1 ∧ SamePadded 7 4 3 1 2 ∧ SamePadded 10 1 2 0 0 := by
  have hmake : Padding.make .same [10, 7, 10] [3, 4, 1] [2, 3, 2] =
      .ok ⟨[0, 1, 0], [1, 2, 0]⟩ := rfl
  obtain ⟨padding, hmake', -, -, haxes⟩ :=
    @same_padding_exact_and_least [10, 7, 10] [3, 4, 1] [2, 3, 2] rfl rfl (by decide) (by decide)
  obtain rfl := Except.ok.inj (hmake.symm.trans hmake')
  obtain ⟨_, _, ⟨⟩, ⟨⟩, hfirst⟩ := haxes 0 10 3 2 ⟨rfl, rfl, rfl⟩
  obtain ⟨_, _, ⟨⟩, ⟨⟩, hsecond⟩ := haxes 1 7 4 3 ⟨rfl, rfl, rfl⟩
  obtain ⟨_, _, ⟨⟩, ⟨⟩, hthird⟩ := haxes 2 10 1 2 ⟨rfl, rfl, rfl⟩
  exact ⟨hmake, hfirst, hsecond, hthird⟩

end GraphLowering
