import Mathlib
import GraphLowering.Proofs.Elements
import GraphLowering.Proofs.SafeInsertion

/-!
# Sizes as numbers of positions

Inference finds the sizes of slices and of window ops by division. The sizes are numbers of
positions: a slice takes one element for each multiple of its stride that stays below its upper
bound, and a window has one position for each multiple of its stride at which it still ends on the
padded axis. Once the lists of such an op have the right lengths and its operands match, it is
refused only where a bound, a stride or a window does not fit its axis.

* `AxisSlice`, `AxisWindow` — a slice and a window along one axis, with the positions they take.
* `sliceAxis_eq_ok`, `windowOutput_eq_ok_iff` — the size along one axis.
* `Graph.Slices`, `Graph.Slides` — slices and window ops with lists of the right lengths and
  operands that match.
* `infer_slice_eq_ok`, `infer_window_eq_ok` — when the op has a type, and its sizes.
* `inferred_sizes_count_positions` — sizes are numbers of positions, and when an op is refused.
-/

namespace GraphLowering

open Target

/-- A set that holds the numbers below `n` and no others has `n` members. -/
theorem encard_of_mem_iff_lt {s : Set Nat} {n : Nat} (h : ∀ i, i ∈ s ↔ i < n) : s.encard = n := by
  have hrange : s = ↑(Finset.range n) := by
    ext i
    rw [h, Finset.mem_coe, Finset.mem_range]
  rw [hrange, Set.encard_coe_eq_coe_finsetCard, Finset.card_range]

theorem entryAt_getD {xs : List Nat} {i : Nat} (h : i < xs.length) :
    entryAt xs i = .ok (xs.getD i 0) := by
  rw [entryAt_eq_ok (List.getElem?_eq_getElem h), List.getD_eq_getElem xs 0 h]

/-! ### One axis of a slice -/

/-- A slice along an axis of `size` elements. -/
structure AxisSlice where
  size : Nat
  lower : Nat
  upper : Nat
  stride : Nat

namespace AxisSlice

/-- The multiples of the stride at which the slice takes an element. -/
def taken (s : AxisSlice) : Set Nat := {i | s.lower + i * s.stride < s.upper}

/-- The bounds are in order and on the axis, and the slice goes on from element to element. -/
def Fits (s : AxisSlice) : Prop := s.lower ≤ s.upper ∧ s.upper ≤ s.size ∧ s.stride ≠ 0

/-- The slice fits its axis and takes `n` elements. -/
def Takes (s : AxisSlice) (n : Nat) : Prop := s.Fits ∧ s.taken.encard = n

/-- The slice along one axis, from lists with an entry for each axis. -/
def ofLists (shape lower upper strides : List Nat) (d : Nat) : AxisSlice :=
  ⟨shape.getD d 0, lower.getD d 0, upper.getD d 0, strides.getD d 0⟩

theorem mem_taken_iff {s : AxisSlice} (h : s.Fits) (i : Nat) :
    i ∈ s.taken ↔ i < (s.upper - s.lower + s.stride - 1) / s.stride := by
  obtain ⟨hbounds, -, hstride⟩ := h
  -- the quotient is rounded up, so a last stride that is not full still takes its first element
  rw [← Nat.succ_le_iff, Nat.le_div_iff_mul_le (Nat.pos_of_ne_zero hstride), Nat.succ_mul]
  show s.lower + i * s.stride < s.upper ↔ _
  omega

theorem encard_taken {s : AxisSlice} (h : s.Fits) :
    s.taken.encard = ((s.upper - s.lower + s.stride - 1) / s.stride : Nat) :=
  encard_of_mem_iff_lt (mem_taken_iff h)

theorem exists_takes_iff {s : AxisSlice} : (∃ n, s.Takes n) ↔ s.Fits :=
  ⟨fun ⟨_, h, _⟩ => h, fun h => ⟨_, h, encard_taken h⟩⟩

/-- What a slice takes lies on the axis. -/
theorem Fits.lt_size {s : AxisSlice} (h : s.Fits) {i : Nat} (hi : i ∈ s.taken) :
    s.lower + i * s.stride < s.size :=
  lt_of_lt_of_le hi h.2.1

end AxisSlice

section Slice

variable {shape : Shape} {lower upper strides : List Nat} {d n : Nat}

/-- A size along an axis is inferred just if the slice fits the axis, and it is the number of
elements that the slice takes. -/
theorem sliceAxis_eq_ok (hd : d < shape.length) (hlower : lower.length = shape.length)
    (hupper : upper.length = shape.length) (hstrides : strides.length = shape.length) :
    sliceAxis shape lower upper strides d = .ok n ↔
      (AxisSlice.ofLists shape lower upper strides d).Takes n := by
  rw [AxisSlice.Takes, sliceAxis, entryAt_getD hd, except_ok_bind, entryAt_getD (hlower ▸ hd),
    except_ok_bind, entryAt_getD (hupper ▸ hd), except_ok_bind, entryAt_getD (hstrides ▸ hd),
    except_ok_bind]
  by_cases hfits : (AxisSlice.ofLists shape lower upper strides d).Fits
  · rw [AxisSlice.encard_taken hfits]
    obtain ⟨hbounds, hsize, hstride⟩ := id hfits
    dsimp only [AxisSlice.ofLists] at hbounds hsize hstride
    rw [if_neg (by omega), minus_eq_ok hbounds, except_ok_bind, minus_eq_ok (by omega),
      except_ok_bind, quotient_eq_ok hstride, Except.ok.injEq, Nat.cast_inj]
    exact (and_iff_right hfits).symm
  · have hguard : upper.getD d 0 < lower.getD d 0 ∨ shape.getD d 0 < upper.getD d 0 ∨
        strides.getD d 0 = 0 := by
      by_contra hnone
      simp only [not_or, not_lt] at hnone
      exact hfits hnone
    rw [if_pos hguard]
    exact iff_of_false (fun h => by cases h) fun h => hfits h.1

end Slice

/-! ### One axis of a window -/

/-- A window of `extent` elements along an axis of `size` elements with padding on both sides. -/
structure AxisWindow where
  size : Nat
  extent : Nat
  stride : Nat
  below : Nat
  above : Nat

namespace AxisWindow

/-- The multiples of the stride at which the window ends on the padded axis. -/
def positions (w : AxisWindow) : Set Nat :=
  {i | i * w.stride + w.extent ≤ w.size + w.below + w.above}

/-- The window is not empty, fits on the padded axis and goes on from position to position. -/
def Fits (w : AxisWindow) : Prop :=
  w.stride ≠ 0 ∧ w.extent ≠ 0 ∧ w.extent ≤ w.size + w.below + w.above

/-- The window fits its axis and has `n` positions. -/
def Has (w : AxisWindow) (n : Nat) : Prop := w.Fits ∧ w.positions.encard = n

theorem mem_positions_iff {w : AxisWindow} (h : w.Fits) (i : Nat) :
    i ∈ w.positions ↔ i < (w.size + w.below + w.above - w.extent) / w.stride + 1 := by
  obtain ⟨hstride, -, hfits⟩ := h
  -- the quotient counts the strides that fit behind the first position
  rw [Nat.lt_succ_iff, Nat.le_div_iff_mul_le (Nat.pos_of_ne_zero hstride)]
  show i * w.stride + w.extent ≤ w.size + w.below + w.above ↔ _
  omega

theorem encard_positions {w : AxisWindow} (h : w.Fits) :
    w.positions.encard =
      ((w.size + w.below + w.above - w.extent) / w.stride + 1 : Nat) :=
  encard_of_mem_iff_lt (mem_positions_iff h)

theorem exists_has_iff {w : AxisWindow} : (∃ n, w.Has n) ↔ w.Fits :=
  ⟨fun ⟨_, h, _⟩ => h, fun h => ⟨_, h, encard_positions h⟩⟩

/-- A window that fits has its first position. -/
theorem Has.one_le {w : AxisWindow} {n : Nat} (h : w.Has n) : 1 ≤ n := by
  obtain ⟨hfits, hn⟩ := h
  rw [encard_positions hfits, Nat.cast_inj] at hn
  exact hn ▸ Nat.le_add_left 1 _

end AxisWindow

theorem windowOutput_eq_ok_iff (op : String) (w : AxisWindow) {n : Nat} :
    windowOutput op w.size w.extent w.stride w.below w.above = .ok n ↔ w.Has n := by
  rw [AxisWindow.Has, windowOutput]
  by_cases hfits : w.Fits
  · rw [AxisWindow.encard_positions hfits]
    obtain ⟨hstride, hextent, hpadded⟩ := id hfits
    rw [if_neg (by omega), minus_eq_ok hpadded, except_ok_bind, quotient_eq_ok hstride,
      except_ok_bind, except_pure_eq, Except.ok.injEq, Nat.cast_inj]
    simp [hfits]
  · have hguard : w.stride = 0 ∨ w.extent = 0 ∨ w.size + w.below + w.above < w.extent := by
      by_contra hnone
      simp only [not_or, not_lt] at hnone
      exact hfits hnone
    rw [if_pos hguard]
    exact iff_of_false nofun fun h => hfits h.1

/-! ### All axes -/

/-- Sizes that are inferred one by one are counted one by one. -/
theorem mapM_range_eq_ok {α : Type} {rank : Nat} {f : Nat → Except Error Nat} {along : Nat → α}
    {counts : α → Nat → Prop} (h : ∀ d < rank, ∀ n, f d = .ok n ↔ counts (along d) n)
    {sizes : List Nat} :
    (List.range rank).mapM f = .ok sizes ↔
      List.Forall₂ counts ((List.range rank).map along) sizes := by
  rw [except_mapM_eq_ok, List.forall₂_map_left_iff]
  have hmem : ∀ d ∈ List.range rank, ∀ n, f d = .ok n ↔ counts (along d) n :=
    fun d hd => h d (List.mem_range.mp hd)
  -- of the range only the bound on its members was used, so the axes may be any list
  generalize List.range rank = axes at hmem
  induction axes generalizing sizes with
  | nil => simp only [List.forall₂_nil_left_iff]
  | cons d axes ih =>
    simp only [List.forall₂_cons_left_iff, hmem d List.mem_cons_self,
      ih fun d' hd' => hmem d' (List.mem_cons_of_mem d hd')]

/-- The slices along all axes. -/
def axisSlices (shape lower upper strides : List Nat) : List AxisSlice :=
  (List.range shape.length).map (AxisSlice.ofLists shape lower upper strides)

/-- The windows of a convolution along the spatial axes. The elements of a kernel lie apart, so its
window is its dilated extent. -/
def Target.ConvolutionWindow.along (w : ConvolutionWindow) (image kernel : List Nat) :
    List AxisWindow :=
  (List.range image.length).map fun d =>
    ⟨image.getD d 0, dilatedExtent (kernel.getD d 0) (w.dilations.getD d 0), w.strides.getD d 0,
      w.below.getD d 0, w.above.getD d 0⟩

/-- The windows of a pooling op along the spatial axes. -/
def Target.PoolWindow.along (w : PoolWindow) (image : List Nat) : List AxisWindow :=
  (List.range image.length).map fun d =>
    ⟨image.getD d 0, w.window.getD d 0, w.strides.getD d 0, w.below.getD d 0, w.above.getD d 0⟩

/-- The sizes of the windows along the spatial axes of a convolution. -/
theorem convolutionSizes_eq_ok {image kernel sizes : List Nat} {w : ConvolutionWindow}
    (hkernel : kernel.length = image.length)
    (hlists : ∀ entries ∈ [w.strides, w.dilations, w.below, w.above],
      entries.length = image.length) :
    convolutionSizes image kernel w = .ok sizes ↔
      List.Forall₂ AxisWindow.Has (w.along image kernel) sizes := by
  simp only [List.forall_mem_cons] at hlists
  obtain ⟨hstrides, hdilations, hbelow, habove, -⟩ := hlists
  refine mapM_range_eq_ok fun d hd n => ?_
  rw [entryAt_getD hd, except_ok_bind, entryAt_getD (hkernel ▸ hd), except_ok_bind,
    entryAt_getD (hdilations ▸ hd), except_ok_bind, entryAt_getD (hstrides ▸ hd), except_ok_bind,
    entryAt_getD (hbelow ▸ hd), except_ok_bind, entryAt_getD (habove ▸ hd), except_ok_bind]
  exact windowOutput_eq_ok_iff _ ⟨_, _, _, _, _⟩

theorem poolSizes_eq_ok {op : String} {image sizes : List Nat} {w : PoolWindow}
    (hlists : ∀ entries ∈ [w.window, w.strides, w.below, w.above],
      entries.length = image.length) :
    poolSizes op image w = .ok sizes ↔ List.Forall₂ AxisWindow.Has (w.along image) sizes := by
  simp only [List.forall_mem_cons] at hlists
  obtain ⟨hwindow, hstrides, hbelow, habove, -⟩ := hlists
  refine mapM_range_eq_ok fun d hd n => ?_
  rw [entryAt_getD hd, except_ok_bind, entryAt_getD (hwindow ▸ hd), except_ok_bind,
    entryAt_getD (hstrides ▸ hd), except_ok_bind, entryAt_getD (hbelow ▸ hd), except_ok_bind,
    entryAt_getD (habove ▸ hd), except_ok_bind]
  exact windowOutput_eq_ok_iff _ ⟨_, _, _, _, _⟩

/-! ### Ops with fitting lists and operands -/

section Types

variable {g : Graph} {op : Op} {ws : List Wire} {operands : List TensorType} {a b : TensorType}

theorem oneOperand_eq_ok : oneOperand op operands = .ok a ↔ operands = [a] := by
  unfold oneOperand
  split
  case h_1 a' => simp
  case h_2 hother => exact iff_of_false nofun fun h => hother a h

theorem twoOperands_eq_ok : twoOperands op operands = .ok (a, b) ↔ operands = [a, b] := by
  unfold twoOperands
  split
  case h_1 a' b' => simp
  case h_2 hother => exact iff_of_false nofun fun h => hother a b h

theorem Target.Graph.types_eq_one : g.types ws = .ok [a] ↔ ∃ x, ws = [x] ∧ g.type? x = some a := by
  constructor
  · intro htypes
    cases Stepwise.forall₂_of_types htypes with
    | cons hx hrest =>
      cases hrest
      exact ⟨_, rfl, hx⟩
  · rintro ⟨x, rfl, hx⟩
    exact Graph.types_one hx

theorem Target.Graph.types_eq_two :
    g.types ws = .ok [a, b] ↔ ∃ x y, ws = [x, y] ∧ g.type? x = some a ∧ g.type? y = some b := by
  constructor
  · intro htypes
    cases Stepwise.forall₂_of_types htypes with
    | cons hx hrest =>
      cases hrest with
      | cons hy hrest =>
        cases hrest
        exact ⟨_, _, rfl, hx, hy⟩
  · rintro ⟨x, y, rfl, hx, hy⟩
    exact Graph.types_two hx hy

theorem checkWindow_eq_ok {name : String} {rank : Nat} {parameters : List (List Nat)} :
    checkWindow name rank parameters = .ok () ↔ ∀ entries ∈ parameters, entries.length = rank := by
  unfold checkWindow
  split
  case isTrue h => simpa using h
  case isFalse h => exact iff_of_false nofun (by simpa using h)

theorem spatialParts_eq_ok {name : String} {shape : Shape} {batch channels : Nat}
    {image : List Nat} :
    spatialParts name shape = .ok (batch, channels, image) ↔
      shape = batch :: channels :: image ∧ image ≠ [] := by
  unfold spatialParts
  split
  case h_1 b c size sizes =>
    simp only [Except.ok.injEq, Prod.mk.injEq, List.cons.injEq]
    constructor
    · rintro ⟨rfl, rfl, rfl⟩
      exact ⟨⟨rfl, rfl, rfl⟩, by simp⟩
    · rintro ⟨⟨rfl, rfl, rfl⟩, -⟩
      exact ⟨rfl, rfl, rfl⟩
  case h_2 hother =>
    refine iff_of_false nofun ?_
    rintro ⟨rfl, himage⟩
    obtain ⟨size, sizes, rfl⟩ := List.exists_cons_of_ne_nil himage
    exact hother batch channels size sizes rfl

end Types

/-- An op is a slice with bounds and strides for every axis of its operand. -/
inductive Target.Graph.Slices (g : Graph) : Op → List Wire → ElementType → List AxisSlice → Prop
  where
  | slice {lower upper strides : List Nat} {x : Wire} {element : ElementType} {shape : Shape}
      (hx : g.type? x = some ⟨element, shape⟩) (hlower : lower.length = shape.length)
      (hupper : upper.length = shape.length) (hstrides : strides.length = shape.length) :
    Slices g (.slice lower upper strides) [x] element (axisSlices shape lower upper strides)

/-- The window of a pooling op. -/
def Target.Op.poolWindow? : Op → Option PoolWindow
  | .maxPool w | .avgPool w _ => some w
  | _ => none

/-- An op moves a window over channels-first data with at least one spatial axis, and its lists have
an entry for each of them. The filters of a convolution have the elements, the channels and the rank
of the data. In front of the spatial sizes the result has the sizes `front`. -/
inductive Target.Graph.Slides (g : Graph) :
    Op → List Wire → ElementType → (front : Shape) → List AxisWindow → Prop where
  | convolution {w : ConvolutionWindow} {x f : Wire} {element : ElementType}
      {batch channels count : Nat} {image kernel : List Nat}
      (hx : g.type? x = some ⟨element, batch :: channels :: image⟩)
      (hf : g.type? f = some ⟨element, count :: channels :: kernel⟩) (himage : image ≠ [])
      (hkernel : kernel.length = image.length)
      (hlists : ∀ entries ∈ [w.strides, w.dilations, w.below, w.above],
        entries.length = image.length) :
    Slides g (.convolution w) [x, f] element [batch, count] (w.along image kernel)
  | pool {op : Op} {w : PoolWindow} {x : Wire} {element : ElementType} {batch channels : Nat}
      {image : List Nat} (hop : op.poolWindow? = some w)
      (hx : g.type? x = some ⟨element, batch :: channels :: image⟩) (himage : image ≠ [])
      (hlists : ∀ entries ∈ [w.window, w.strides, w.below, w.above],
        entries.length = image.length) :
    Slides g op [x] element [batch, channels] (w.along image)

/-- Whether an op is a slice. -/
def Target.Op.isSlice : Op → Bool
  | .slice _ _ _ => true
  | _ => false

/-- Whether an op moves a window over its data. -/
def Target.Op.isWindow : Op → Bool
  | .convolution _ | .maxPool _ | .avgPool _ _ => true
  | _ => false

section Infer

variable {g : Graph} {op : Op} {ws : List Wire} {type : TensorType}

theorem Target.Graph.infer_eq_ok_of_one {read : TensorType → Except Error TensorType}
    (hop : ∀ operands, op.infer operands = (oneOperand op operands >>= read)) :
    g.infer op ws = .ok type ↔ ∃ x a, ws = [x] ∧ g.type? x = some a ∧ read a = .ok type := by
  rw [infer_eq_ok]
  constructor
  · rintro ⟨operands, htypes, h⟩
    rw [hop] at h
    obtain ⟨a, ha, h⟩ := except_bind_eq_ok.mp h
    rw [oneOperand_eq_ok] at ha
    subst ha
    obtain ⟨x, rfl, hx⟩ := types_eq_one.mp htypes
    exact ⟨x, a, rfl, hx, h⟩
  · rintro ⟨x, a, rfl, hx, h⟩
    exact ⟨[a], types_one hx, (hop [a]).trans h⟩

theorem Target.Graph.infer_eq_ok_of_two {read : TensorType → TensorType → Except Error TensorType}
    (hop : ∀ operands, op.infer operands = (twoOperands op operands >>= fun p => read p.1 p.2)) :
    g.infer op ws = .ok type ↔ ∃ x y a b, ws = [x, y] ∧ g.type? x = some a ∧ g.type? y = some b ∧
      read a b = .ok type := by
  rw [infer_eq_ok]
  constructor
  · rintro ⟨operands, htypes, h⟩
    rw [hop] at h
    obtain ⟨⟨a, b⟩, ha, h⟩ := except_bind_eq_ok.mp h
    rw [twoOperands_eq_ok] at ha
    subst ha
    obtain ⟨x, y, rfl, hx, hy⟩ := types_eq_two.mp htypes
    exact ⟨x, y, a, b, rfl, hx, hy, h⟩
  · rintro ⟨x, y, a, b, rfl, hx, hy, h⟩
    exact ⟨[a, b], types_two hx hy, (hop [a, b]).trans h⟩

/-- A slice has a type just if its lists fit its operand and its bounds fit the axes; the sizes are
the numbers of elements that it takes. -/
theorem infer_slice_eq_ok (hop : op.isSlice = true) :
    g.infer op ws = .ok type ↔
      ∃ slices, g.Slices op ws type.element slices ∧
        List.Forall₂ AxisSlice.Takes slices type.shape := by
  cases op with
  | slice lower upper strides =>
    rw [Graph.infer_eq_ok_of_one fun operands => rfl]
    constructor
    · rintro ⟨x, ⟨element, shape⟩, rfl, hx, h⟩
      dsimp only at h
      split at h
      case isTrue => cases h
      case isFalse hranks =>
        simp only [not_or, not_not] at hranks
        obtain ⟨hlower, hupper, hstrides⟩ := hranks
        obtain ⟨sizes, hsizes, h⟩ := except_bind_eq_ok.mp h
        cases h
        exact ⟨_, .slice hx hlower hupper hstrides, (mapM_range_eq_ok fun d hd n =>
          sliceAxis_eq_ok hd hlower hupper hstrides).mp hsizes⟩
    · rintro ⟨_, hslices, hsizes⟩
      obtain ⟨element, shape⟩ := type
      cases hslices with
      | slice hx hlower hupper hstrides =>
        refine ⟨_, _, rfl, hx, ?_⟩
        dsimp only
        rw [if_neg (by simp [hlower, hupper, hstrides]), (mapM_range_eq_ok fun d hd n =>
          sliceAxis_eq_ok hd hlower hupper hstrides).mpr hsizes]
        rfl
  | _ => cases hop

theorem inferConvolution_eq_ok {w : ConvolutionWindow} {data filters : TensorType} :
    inferConvolution w data filters = .ok type ↔
      ∃ batch channels count image kernel sizes, data.shape = batch :: channels :: image ∧
        image ≠ [] ∧ filters.shape = count :: channels :: kernel ∧
        kernel.length = image.length ∧ data.element = filters.element ∧
        (∀ entries ∈ [w.strides, w.dilations, w.below, w.above],
          entries.length = image.length) ∧
        List.Forall₂ AxisWindow.Has (w.along image kernel) sizes ∧
        type = ⟨data.element, batch :: count :: sizes⟩ := by
  constructor
  · intro h
    obtain ⟨⟨batch, channels, image⟩, hparts, h⟩ := except_bind_eq_ok.mp h
    obtain ⟨hdata, himage⟩ := spatialParts_eq_ok.mp hparts
    dsimp only at h
    split at h
    case h_2 => cases h
    case h_1 count depth kernel hfilters =>
      split at h
      case isTrue => cases h
      case isFalse hfit =>
        simp only [not_or, not_not] at hfit
        obtain ⟨hkernel, rfl⟩ := hfit
        split at h
        case isTrue => cases h
        case isFalse helement =>
          obtain ⟨_, hwindow, h⟩ := except_bind_eq_ok.mp h
          obtain ⟨sizes, hsizes, h⟩ := except_bind_eq_ok.mp h
          have hlists := checkWindow_eq_ok.mp hwindow
          exact ⟨batch, depth, count, image, kernel, sizes, hdata, himage, hfilters, hkernel,
            not_not.mp helement, hlists, (convolutionSizes_eq_ok hkernel hlists).mp hsizes,
            (Except.ok.inj h).symm⟩
  · rintro ⟨batch, channels, count, image, kernel, sizes, hdata, himage, hfilters, hkernel,
      helement, hlists, hsizes, rfl⟩
    rw [inferConvolution, spatialParts_eq_ok.mpr ⟨hdata, himage⟩, except_ok_bind, hfilters]
    dsimp only
    rw [if_neg (by simp [hkernel]), if_neg (not_not.mpr helement), checkWindow_eq_ok.mpr hlists,
      except_ok_bind, (convolutionSizes_eq_ok hkernel hlists).mpr hsizes]
    rfl

theorem inferPool_eq_ok {name : String} {w : PoolWindow} {data : TensorType} :
    inferPool name w data = .ok type ↔
      ∃ batch channels image sizes, data.shape = batch :: channels :: image ∧ image ≠ [] ∧
        (∀ entries ∈ [w.window, w.strides, w.below, w.above], entries.length = image.length) ∧
        List.Forall₂ AxisWindow.Has (w.along image) sizes ∧
        type = ⟨data.element, batch :: channels :: sizes⟩ := by
  constructor
  · intro h
    obtain ⟨⟨batch, channels, image⟩, hparts, h⟩ := except_bind_eq_ok.mp h
    obtain ⟨hdata, himage⟩ := spatialParts_eq_ok.mp hparts
    obtain ⟨_, hwindow, h⟩ := except_bind_eq_ok.mp h
    obtain ⟨sizes, hsizes, h⟩ := except_bind_eq_ok.mp h
    have hlists := checkWindow_eq_ok.mp hwindow
    exact ⟨batch, channels, image, sizes, hdata, himage, hlists,
      (poolSizes_eq_ok hlists).mp hsizes, (Except.ok.inj h).symm⟩
  · rintro ⟨batch, channels, image, sizes, hdata, himage, hlists, hsizes, rfl⟩
    rw [inferPool, spatialParts_eq_ok.mpr ⟨hdata, himage⟩, except_ok_bind]
    dsimp only
    rw [checkWindow_eq_ok.mpr hlists, except_ok_bind, (poolSizes_eq_ok hlists).mpr hsizes]
    rfl

/-- A convolution has a type just if its lists and its filters fit its data and its windows fit the
axes. -/
theorem infer_convolution_eq_ok {w : ConvolutionWindow} :
    g.infer (.convolution w) ws = .ok type ↔
      ∃ front windows sizes, g.Slides (.convolution w) ws type.element front windows ∧
        List.Forall₂ AxisWindow.Has windows sizes ∧ type.shape = front ++ sizes := by
  rw [Graph.infer_eq_ok_of_two fun operands => rfl]
  constructor
  · rintro ⟨x, f, ⟨element, shape⟩, ⟨element', shape'⟩, rfl, hx, hf, h⟩
    obtain ⟨batch, channels, count, image, kernel, sizes, rfl, himage, rfl, hkernel, rfl, hlists,
      hsizes, rfl⟩ := inferConvolution_eq_ok.mp h
    exact ⟨_, _, sizes, .convolution hx hf himage hkernel hlists, hsizes, rfl⟩
  · rintro ⟨_, _, sizes, hslides, hsizes, hshape⟩
    obtain ⟨element, shape⟩ := type
    obtain rfl : shape = _ := hshape
    cases hslides with
    | convolution hx hf himage hkernel hlists =>
      exact ⟨_, _, _, _, rfl, hx, hf, inferConvolution_eq_ok.mpr ⟨_, _, _, _, _, sizes, rfl, himage,
        rfl, hkernel, rfl, hlists, hsizes, rfl⟩⟩
    | pool hop => cases hop

/-- A pooling op has a type just if its lists fit its data and its windows fit the axes. -/
theorem infer_pool_eq_ok {w : PoolWindow} (hop : op.poolWindow? = some w) :
    g.infer op ws = .ok type ↔
      ∃ front windows sizes, g.Slides op ws type.element front windows ∧
        List.Forall₂ AxisWindow.Has windows sizes ∧ type.shape = front ++ sizes := by
  have hinfer : ∀ operands, op.infer operands =
      (oneOperand op operands >>= inferPool op.name w) := by
    intro operands
    cases op with
    | maxPool w' =>
      obtain rfl : w' = w := Option.some.inj hop
      rfl
    | avgPool w' counted =>
      obtain rfl : w' = w := Option.some.inj hop
      rfl
    | _ => cases hop
  rw [Graph.infer_eq_ok_of_one hinfer]
  constructor
  · rintro ⟨x, ⟨element, shape⟩, rfl, hx, h⟩
    obtain ⟨batch, channels, image, sizes, rfl, himage, hlists, hsizes, rfl⟩ :=
      inferPool_eq_ok.mp h
    exact ⟨_, _, sizes, .pool hop hx himage hlists, hsizes, rfl⟩
  · rintro ⟨_, _, sizes, hslides, hsizes, hshape⟩
    obtain ⟨element, shape⟩ := type
    obtain rfl : shape = _ := hshape
    cases hslides with
    | convolution => cases hop
    | pool hop' hx himage hlists =>
      obtain rfl := Option.some.inj (hop.symm.trans hop')
      exact ⟨_, _, rfl, hx, inferPool_eq_ok.mpr ⟨_, _, _, sizes, rfl, himage, hlists, hsizes, rfl⟩⟩

/-- The ops that move a window have a type just if the windows fit the axes; the spatial sizes are
the numbers of positions. -/
theorem infer_window_eq_ok (hop : op.isWindow = true) :
    g.infer op ws = .ok type ↔
      ∃ front windows sizes, g.Slides op ws type.element front windows ∧
        List.Forall₂ AxisWindow.Has windows sizes ∧ type.shape = front ++ sizes := by
  cases op with
  | convolution w => exact infer_convolution_eq_ok
  | maxPool w => exact infer_pool_eq_ok rfl
  | avgPool w counted => exact infer_pool_eq_ok rfl
  | _ => cases hop

end Infer

/-! ### Ops in an arena -/

section Emit

variable {g : Graph} {op : Op} {ws : List Wire}

theorem emit_eq_ok {w : Wire} {h : Graph} :
    emit op ws g = .ok w h ↔
      ∃ type, g.infer op ws = .ok type ∧ w = g.size ∧ h = g.push op ws type := by
  rw [emit_eq]
  cases g.infer op ws with
  | error e => simp
  | ok type => simp [eq_comm]

theorem exists_emit_iff : (∃ w h, emit op ws g = .ok w h) ↔ ∃ type, g.infer op ws = .ok type := by
  constructor
  · rintro ⟨w, h, hrun⟩
    exact exists_infer_of_emit hrun
  · rintro ⟨type, hinfer⟩
    exact ⟨_, _, emit_of_infer hinfer⟩

theorem Target.Graph.Slices.isSlice {element : ElementType} {slices : List AxisSlice}
    (h : g.Slices op ws element slices) : op.isSlice = true := by
  cases h
  rfl

theorem Target.Graph.Slides.isWindow {element : ElementType} {front : Shape}
    {windows : List AxisWindow} (h : g.Slides op ws element front windows) :
    op.isWindow = true := by
  cases h with
  | convolution => rfl
  | pool hop =>
    cases op with
    | maxPool w => rfl
    | avgPool w counted => rfl
    | _ => cases hop

theorem Target.Graph.Slices.unique {element element' : ElementType}
    {slices slices' : List AxisSlice} (h : g.Slices op ws element slices)
    (h' : g.Slices op ws element' slices') : slices = slices' := by
  cases h with
  | slice hx =>
    cases h' with
    | slice hx' =>
      obtain ⟨-, rfl⟩ := TensorType.mk.inj (Option.some.inj (hx.symm.trans hx'))
      rfl

theorem Target.Graph.Slides.unique {element element' : ElementType} {front front' : Shape}
    {windows windows' : List AxisWindow} (h : g.Slides op ws element front windows)
    (h' : g.Slides op ws element' front' windows') : front = front' ∧ windows = windows' := by
  cases h with
  | convolution hx hf =>
    cases h' with
    | convolution hx' hf' =>
      obtain ⟨-, hdata⟩ := TensorType.mk.inj (Option.some.inj (hx.symm.trans hx'))
      obtain ⟨-, hfilters⟩ := TensorType.mk.inj (Option.some.inj (hf.symm.trans hf'))
      cases hdata
      cases hfilters
      exact ⟨rfl, rfl⟩
  | pool hop hx =>
    cases h' with
    | pool hop' hx' =>
      obtain ⟨-, hdata⟩ := TensorType.mk.inj (Option.some.inj (hx.symm.trans hx'))
      obtain rfl := Option.some.inj (hop.symm.trans hop')
      cases hdata
      exact ⟨rfl, rfl⟩

/-- A slice with lists of the right lengths is accepted just if it fits every axis. -/
theorem exists_emit_slice_iff {element : ElementType} {slices : List AxisSlice}
    (h : g.Slices op ws element slices) :
    (∃ y h, emit op ws g = .ok y h) ↔ ∀ s ∈ slices, s.Fits := by
  rw [exists_emit_iff]
  constructor
  · rintro ⟨type, hinfer⟩ s hs
    -- the slices behind the type are the ones at hand, since op and wires decide them
    obtain ⟨slices', h', hsizes⟩ := (infer_slice_eq_ok h.isSlice).mp hinfer
    obtain rfl := h.unique h'
    exact AxisSlice.exists_takes_iff.mp (exists_forall₂_iff.mp ⟨_, hsizes⟩ s hs)
  · intro hfits
    obtain ⟨sizes, hsizes⟩ := exists_forall₂_iff.mpr fun s hs =>
      AxisSlice.exists_takes_iff.mpr (hfits s hs)
    exact ⟨⟨element, sizes⟩, (infer_slice_eq_ok h.isSlice).mpr ⟨slices, h, hsizes⟩⟩

/-- A window op with lists of the right lengths and operands that match is accepted just if its
window fits every axis. -/
theorem exists_emit_window_iff {element : ElementType} {front : Shape} {windows : List AxisWindow}
    (h : g.Slides op ws element front windows) :
    (∃ y h, emit op ws g = .ok y h) ↔ ∀ w ∈ windows, w.Fits := by
  rw [exists_emit_iff]
  constructor
  · rintro ⟨type, hinfer⟩ w hw
    obtain ⟨_, windows', sizes, h', hsizes, -⟩ := (infer_window_eq_ok h.isWindow).mp hinfer
    obtain ⟨-, rfl⟩ := h.unique h'
    exact AxisWindow.exists_has_iff.mp (exists_forall₂_iff.mp ⟨_, hsizes⟩ w hw)
  · intro hfits
    obtain ⟨sizes, hsizes⟩ := exists_forall₂_iff.mpr fun w hw =>
      AxisWindow.exists_has_iff.mpr (hfits w hw)
    exact ⟨⟨element, front ++ sizes⟩, (infer_window_eq_ok h.isWindow).mpr
      ⟨front, windows, sizes, h, hsizes, rfl⟩⟩

end Emit

/-- **Inferred sizes are numbers of positions.** Every slice that is accepted has lists of the right
lengths. Along each axis the size of its result is the number of multiples of the stride that stay
below the upper bound, and each of them is the place of an element. Every window op that is accepted
has lists of the right lengths and operands that match. Along each spatial axis the size of its
result is the number of multiples of the stride at which the window ends on the padded axis, and it
is at least one. A slice or a window op that has such lists and operands is refused only if it does
not fit one of the axes. -/
theorem inferred_sizes_count_positions (g : Graph) (op : Op) (ws : List Wire) :
    (op.isSlice = true → ∀ y h, emit op ws g = .ok y h →
      ∃ element slices sizes, g.Slices op ws element slices ∧
        h.type? y = some ⟨element, sizes⟩ ∧
        List.Forall₂ (fun (s : AxisSlice) (n : Nat) => s.taken.encard = n ∧
          ∀ i ∈ s.taken, s.lower + i * s.stride < s.size) slices sizes) ∧
    (op.isWindow = true → ∀ y h, emit op ws g = .ok y h →
      ∃ element front windows sizes, g.Slides op ws element front windows ∧
        h.type? y = some ⟨element, front ++ sizes⟩ ∧
        List.Forall₂ (fun (w : AxisWindow) (n : Nat) => w.positions.encard = n ∧ 1 ≤ n)
          windows sizes) ∧
    (∀ element slices, g.Slices op ws element slices →
      ((∃ y h, emit op ws g = .ok y h) ↔ ∀ s ∈ slices, s.Fits)) ∧
    ∀ element front windows, g.Slides op ws element front windows →
      ((∃ y h, emit op ws g = .ok y h) ↔ ∀ w ∈ windows, w.Fits) := by
  refine ⟨?_, ?_, fun _ _ h => exists_emit_slice_iff h, fun _ _ _ h => exists_emit_window_iff h⟩
  · intro hop y h hrun
    obtain ⟨type, hinfer, rfl, rfl⟩ := emit_eq_ok.mp hrun
    obtain ⟨slices, hslices, hsizes⟩ := (infer_slice_eq_ok hop).mp hinfer
    refine ⟨type.element, slices, type.shape, hslices, g.type?_push_self op ws type, ?_⟩
    exact hsizes.imp fun s n htakes => ⟨htakes.2, fun i hi => htakes.1.lt_size hi⟩
  · intro hop y h hrun
    obtain ⟨⟨element, shape⟩, hinfer, rfl, rfl⟩ := emit_eq_ok.mp hrun
    obtain ⟨front, windows, sizes, hslides, hsizes, hshape⟩ := (infer_window_eq_ok hop).mp hinfer
    obtain rfl : shape = front ++ sizes := hshape
    refine ⟨element, front, windows, sizes, hslides, g.type?_push_self op ws _, ?_⟩
    exact hsizes.imp fun w n hhas => ⟨hhas.2, hhas.one_le⟩

/-- A matrix, and an image with filters. -/
def matrixAndImage : Graph :=
  .ofParameters [⟨.f32, [5, 7]⟩, ⟨.f32, [1, 2, 5, 6]⟩, ⟨.f32, [3, 2, 2, 3]⟩]

/-- A slice that ends between two strides, a slice without a stride, a convolution whose window
fills an axis but for one element, and a pooling window that is larger than the image. -/
theorem matrixAndImage_positions :
    (∃ h, emit (.slice [1, 0] [5, 7] [2, 3]) [0] matrixAndImage = .ok 3 h ∧
      h.type? 3 = some ⟨.f32, [2, 3]⟩ ∧ {i | 1 + i * 2 < 5}.encard = 2 ∧
      {i | 0 + i * 3 < 7}.encard = 3) ∧
    (¬ ∃ y h, emit (.slice [0, 0] [5, 7] [1, 0]) [0] matrixAndImage = .ok y h) ∧
    (∃ h, emit (.convolution ⟨[2, 1], [3, 2], [0, 1], [0, 0]⟩) [1, 2] matrixAndImage = .ok 3 h ∧
      h.type? 3 = some ⟨.f32, [1, 3, 1, 3]⟩ ∧ {i | i * 2 + 4 ≤ 5}.encard = 1 ∧
      {i | i * 1 + 5 ≤ 7}.encard = 3) ∧
    ¬ ∃ y h, emit (.maxPool ⟨[6, 1], [1, 1], [0, 0], [0, 0]⟩) [1] matrixAndImage = .ok y h := by
  have hcut := inferred_sizes_count_positions matrixAndImage (.slice [1, 0] [5, 7] [2, 3]) [0]
  have hstill := inferred_sizes_count_positions matrixAndImage (.slice [0, 0] [5, 7] [1, 0]) [0]
  have hslide := inferred_sizes_count_positions matrixAndImage
    (.convolution ⟨[2, 1], [3, 2], [0, 1], [0, 0]⟩) [1, 2]
  have hwide := inferred_sizes_count_positions matrixAndImage
    (.maxPool ⟨[6, 1], [1, 1], [0, 0], [0, 0]⟩) [1]
  have hmatrix : matrixAndImage.type? 0 = some ⟨.f32, [5, 7]⟩ := rfl
  have himage : matrixAndImage.type? 1 = some ⟨.f32, [1, 2, 5, 6]⟩ := rfl
  have hfilters : matrixAndImage.type? 2 = some ⟨.f32, [3, 2, 2, 3]⟩ := rfl
  refine ⟨⟨_, rfl, rfl, ?_⟩, ?_, ⟨_, rfl, rfl, ?_⟩, ?_⟩
  · have hlists : matrixAndImage.Slices (.slice [1, 0] [5, 7] [2, 3]) [0] .f32
        (axisSlices [5, 7] [1, 0] [5, 7] [2, 3]) := .slice hmatrix rfl rfl rfl
    obtain ⟨element, slices, sizes, hslices, htype, hsizes⟩ := hcut.1 rfl 3 _ rfl
    obtain ⟨rfl, rfl⟩ := TensorType.mk.inj (Option.some.inj htype)
    obtain rfl := hslices.unique hlists
    obtain ⟨hrows, hrest⟩ := List.forall₂_cons.mp hsizes
    exact ⟨hrows.1, (List.forall₂_cons.mp hrest).1.1⟩
  · have hlists : matrixAndImage.Slices (.slice [0, 0] [5, 7] [1, 0]) [0] .f32
        (axisSlices [5, 7] [0, 0] [5, 7] [1, 0]) := .slice hmatrix rfl rfl rfl
    rw [hstill.2.2.1 _ _ hlists]
    intro hfits
    exact (hfits ⟨7, 0, 7, 0⟩ (.tail _ (.head _))).2.2 rfl
  · obtain ⟨element, front, windows, sizes, hslides, htype, hsizes⟩ := hslide.2.1 rfl 3 _ rfl
    obtain ⟨rfl, rfl⟩ := hslides.unique
      (.convolution himage hfilters (List.cons_ne_nil _ _) rfl (by decide))
    obtain ⟨rfl, hshape⟩ := TensorType.mk.inj (Option.some.inj htype)
    have happend : [1, 3] ++ [1, 3] = [1, 3] ++ sizes := hshape
    obtain rfl := List.append_cancel_left happend
    obtain ⟨hrows, hrest⟩ := List.forall₂_cons.mp hsizes
    exact ⟨hrows.1, (List.forall₂_cons.mp hrest).1.1⟩
  · have hlists : matrixAndImage.Slides (.maxPool ⟨[6, 1], [1, 1], [0, 0], [0, 0]⟩) [1] .f32
        [1, 2] (PoolWindow.along ⟨[6, 1], [1, 1], [0, 0], [0, 0]⟩ [5, 6]) :=
      .pool rfl himage (List.cons_ne_nil _ _) (by decide)
    rw [hwide.2.2.2 _ _ _ hlists]
    intro hfits
    exact absurd (hfits ⟨5, 6, 1, 0, 0⟩ (.head _)).2.2 (by decide)

end GraphLowering
