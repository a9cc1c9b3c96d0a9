import Mathlib
import GraphLowering.Proofs.Ranges
import GraphLowering.Proofs.WindowRuns

/-!
# Sizes of window ops

Under the policy `same` a window op gives `⌈size / stride⌉` outputs along an axis, whatever the
extent of its window; under `valid` it gives one output for each stride at which the window still
lies on the axis. The padding of `same` is computed with signed words. Where none of them overflows
it is the padding that makes up for what the windows of all outputs reach beyond the axis.

* `PaddingPolicy.outputs` — the number of outputs along an axis.
* `SameAxis.Exact` — the sizes on which the computation with signed words is exact.
* `sameAxis_of_exact` — the padding of an axis under `same`.
* `axisRun_iff`, `planeRun_iff` — when a window runs along an axis, and with how many outputs.
* `window_output_sizes` — when the node of a window op is lowered, and the shape of its result.
-/

namespace GraphLowering

open Target

/-- The number of outputs along an axis. -/
def PaddingPolicy.outputs : PaddingPolicy → (size extent stride : Nat) → Nat
  | same, size, _, stride => size ⌈/⌉ stride
  | valid, size, extent, stride => (size - extent) / stride + 1

/-! ### Padding without overflow -/

/-- No number that the padding of an axis under `same` goes through leaves the range of a signed
word, the three sizes themselves among them. -/
structure SameAxis.Exact (image kernel stride : Nat) : Prop where
  image_lt : image < signedLimit
  kernel_lt : kernel < signedLimit
  stride_lt : stride < signedLimit
  fits : ¬ SameAxis.Overflows image kernel stride

theorem signed64_of_lt_signedLimit {n : Nat} (h : n < signedLimit) : signed64 n = n := by
  unfold signed64 sizeLimit
  unfold signedLimit at h
  rw [Int.bmod_eq_of_le (by omega) (by omega)]

variable {size extent stride : Nat}

/-- On exact numbers the surplus is what the windows of `⌈image / stride⌉` outputs reach beyond the
image. -/
theorem SameAxis.surplus_eq (image kernel : Nat) (hstride : 0 < stride) :
    (SameAxis.of image kernel stride).surplus =
      stride * ((image ⌈/⌉ stride : Nat) - 1 : Int) + kernel - image := by
  have hreach : (image + stride - 1 : Int) = (image + stride - 1 : Nat) := by omega
  have houtputs : (SameAxis.of image kernel stride).outputs = (image ⌈/⌉ stride : Nat) := by
    rw [Nat.ceilDiv_eq_add_pred_div, Int.natCast_ediv, ← Int.tdiv_eq_ediv_of_nonneg (by omega),
      ← hreach]
    rfl
  rw [← houtputs]
  rfl

theorem sameAxis_of_exact (hstride : 0 < stride) (hexact : SameAxis.Exact size extent stride) :
    ∃ total : Nat, total = (stride * ((size ⌈/⌉ stride : Nat) - 1 : Int) + extent - size).toNat ∧
      sameAxis size extent stride = .ok (total / 2, total - total / 2) := by
  refine ⟨_, rfl, ?_⟩
  have hfits := hexact.fits
  rw [SameAxis.Overflows, Bool.not_eq_false] at hfits
  rw [← SameAxis.surplus_eq size extent hstride, sameAxis, if_neg hstride.ne']
  simp only [signed64_of_lt_signedLimit hexact.image_lt,
    signed64_of_lt_signedLimit hexact.kernel_lt, signed64_of_lt_signedLimit hexact.stride_lt]
    at hfits ⊢
  rw [if_pos hfits]
  rfl

/-! ### Outputs along an axis -/

theorem ceilDiv_eq_succ (hsize : 0 < size) (hstride : 0 < stride) :
    size ⌈/⌉ stride = (size - 1) / stride + 1 := by
  rw [Nat.ceilDiv_eq_add_pred_div, ← Nat.add_div_right _ hstride]
  congr 1
  omega

/-- Padding an axis so that the windows of `q + 1` outputs fit gives `q + 1` outputs, where `q` is the
number of strides before the last element. -/
theorem outputs_of_total (hsize : 0 < size) (hextent : 0 < extent) (hstride : 0 < stride)
    {total : Nat} (htotal : total = stride * ((size - 1) / stride) + extent - size) :
    extent ≤ size + total ∧ (size + total - extent) / stride = (size - 1) / stride := by
  have hbelow : stride * ((size - 1) / stride) ≤ size - 1 := Nat.mul_div_le _ _
  have habove : size - 1 < stride * ((size - 1) / stride + 1) := Nat.lt_mul_div_succ _ hstride
  rw [Nat.mul_add, Nat.mul_one] at habove
  refine ⟨by omega, ?_⟩
  -- With padding the last window ends where the axis does; without it, before the next stride.
  rcases Nat.le_total size (stride * ((size - 1) / stride) + extent) with hle | hle
  · have hlast : size + total - extent = stride * ((size - 1) / stride) := by omega
    rw [hlast, Nat.mul_div_cancel_left _ hstride]
  · have htotal' : total = 0 := by omega
    rw [htotal', Nat.add_zero]
    apply Nat.div_eq_of_lt_le
    · rw [Nat.mul_comm]
      omega
    · rw [Nat.mul_comm, Nat.mul_add, Nat.mul_one]
      omega

/-- The surplus counted without negative numbers. -/
theorem surplus_toNat (hsize : 0 < size) (hstride : 0 < stride) :
    (stride * ((size ⌈/⌉ stride : Nat) - 1 : Int) + extent - size).toNat =
      stride * ((size - 1) / stride) + extent - size := by
  have hspan : (stride * ((size ⌈/⌉ stride : Nat) - 1 : Int)) =
      (stride * ((size - 1) / stride) : Nat) := by
    rw [ceilDiv_eq_succ hsize hstride]
    push_cast
    ring_nf
  rw [hspan]
  omega

theorem axisRun_same (hsize : 0 < size) (hextent : 0 < extent) (hstride : 0 < stride)
    (hexact : SameAxis.Exact size extent stride) :
    ∃ below above, AxisRun .same size extent stride below above (size ⌈/⌉ stride) := by
  obtain ⟨total, htotal, hpadding⟩ := sameAxis_of_exact hstride hexact
  rw [surplus_toNat hsize hstride] at htotal
  obtain ⟨hfits, houtputs⟩ := outputs_of_total hsize hextent hstride htotal
  have hsum : size + total / 2 + (total - total / 2) = size + total := by omega
  exact ⟨_, _, hpadding, by rw [hsum]; exact hfits,
    by rw [hsum, houtputs, ceilDiv_eq_succ hsize hstride]⟩

theorem AxisRun.outputs_unique {policy : PaddingPolicy}
    {below above below' above' outputs outputs' : Nat}
    (h : AxisRun policy size extent stride below above outputs)
    (h' : AxisRun policy size extent stride below' above' outputs') : outputs = outputs' := by
  obtain ⟨rfl, rfl⟩ := Prod.mk.inj (Except.ok.inj (h.padding.symm.trans h'.padding))
  rw [h.outputs, h'.outputs]

/-- A window runs along an axis under `same` always and under `valid` where it fits, with the number
of outputs of the policy. -/
theorem axisRun_iff {policy : PaddingPolicy} {outputs : Nat} (hsize : 0 < size)
    (hextent : 0 < extent) (hstride : 0 < stride)
    (hexact : policy = .same → SameAxis.Exact size extent stride) :
    (∃ below above, AxisRun policy size extent stride below above outputs) ↔
      (policy = .valid → extent ≤ size) ∧ outputs = policy.outputs size extent stride := by
  cases policy with
  | same =>
    obtain ⟨below, above, hrun⟩ := axisRun_same hsize hextent hstride (hexact rfl)
    constructor
    · rintro ⟨_, _, h⟩
      exact ⟨nofun, h.outputs_unique hrun⟩
    · rintro ⟨-, rfl⟩
      exact ⟨below, above, hrun⟩
  | valid =>
    constructor
    · rintro ⟨_, _, ⟨hpadding, hfits, houtputs⟩⟩
      obtain ⟨rfl, rfl⟩ := Prod.mk.inj (Except.ok.inj hpadding)
      exact ⟨fun _ => hfits, houtputs⟩
    · rintro ⟨hfits, rfl⟩
      exact ⟨0, 0, rfl, hfits rfl, rfl⟩

/-! ### Outputs along both axes -/

/-- The number of outputs along both spatial axes. -/
def PaddingPolicy.positions (policy : PaddingPolicy) (size extent stride : Plane) : Plane :=
  ⟨policy.outputs size.vertical extent.vertical stride.vertical,
    policy.outputs size.horizontal extent.horizontal stride.horizontal⟩

/-- A window lies on both spatial axes. -/
def Plane.Fits (extent size : Plane) : Prop :=
  extent.vertical ≤ size.vertical ∧ extent.horizontal ≤ size.horizontal

instance (extent size : Plane) : Decidable (extent.Fits size) :=
  inferInstanceAs (Decidable (_ ∧ _))

/-- The padding of both spatial axes is computed without overflow. -/
def Plane.Exact (size extent stride : Plane) : Prop :=
  SameAxis.Exact size.vertical extent.vertical stride.vertical ∧
    SameAxis.Exact size.horizontal extent.horizontal stride.horizontal

section Planes

variable {policy : PaddingPolicy} {size extent stride : Plane}

theorem exists_planeRun {vertical horizontal : Nat} :
    (∃ below above, PlaneRun policy size extent stride below above ⟨vertical, horizontal⟩) ↔
      (∃ below above, AxisRun policy size.vertical extent.vertical stride.vertical below above
        vertical) ∧
      ∃ below above, AxisRun policy size.horizontal extent.horizontal stride.horizontal below above
        horizontal := by
  constructor
  · rintro ⟨below, above, hrun⟩
    exact ⟨⟨_, _, hrun.vertical⟩, _, _, hrun.horizontal⟩
  · rintro ⟨⟨b, a, hvertical⟩, b', a', hhorizontal⟩
    exact ⟨⟨b, b'⟩, ⟨a, a'⟩, hvertical, hhorizontal⟩

theorem planeRun_iff {positions : Plane} (hsize : size.Positive) (hextent : extent.Positive)
    (hstride : stride.Positive) (hexact : policy = .same → Plane.Exact size extent stride) :
    (∃ below above, PlaneRun policy size extent stride below above positions) ↔
      (policy = .valid → extent.Fits size) ∧ positions = policy.positions size extent stride := by
  obtain ⟨vertical, horizontal⟩ := positions
  rw [exists_planeRun, axisRun_iff hsize.1 hextent.1 hstride.1 fun h => (hexact h).1,
    axisRun_iff hsize.2 hextent.2 hstride.2 fun h => (hexact h).2, PaddingPolicy.positions,
    Plane.mk.injEq, Plane.Fits]
  tauto

end Planes

/-! ### Window ops -/

theorem Requests.positive {ctx : Context} {format : DataFormat} {image : ImageType} {kind : OpKind}
    {filter : Option TensorType} {request : WindowRequest}
    (h : Requests ctx format image kind filter request) :
    request.extent.Positive ∧ request.stride.Positive := by
  cases h with
  | pool _ hwindow hstride => exact ⟨hwindow.1, hstride.1⟩
  | convolve _ hstride _ => exact ⟨Plane.positive_dilated _ _, hstride.1⟩

/-- **Window ops have the sizes that their policy promises.** Take the node of a convolution or a
pooling op with the operands it needs, attributes that ask for a window, an output slot, and an image
that is not empty; its sizes are such that the padding of `same` does not overflow. Under `same` the
node is always lowered; under `valid` it is lowered just if the extent of the window, for a
convolution that of the dilated kernel, fits both spatial axes. The result then has the batch and the
elements of the image, the channels that the node asks for, and along each spatial axis the outputs
of the policy, laid out in the format of the node. -/
theorem window_output_sizes {ctx : Context} {format : DataFormat} {policy : PaddingPolicy}
    {g : Graph} {image : ImageType} {kind : OpKind} {filter : Option TensorType} {ws : List Wire}
    {request : WindowRequest} (hformat : DataFormat.of ctx = .ok format)
    (hpolicy : paddingPolicy ctx = .ok policy)
    (hoperands : WindowOperands g format image kind filter ws)
    (hrequest : Requests ctx format image kind filter request)
    (hslots : 0 < ctx.node.outputs) (himage : image.plane.Positive)
    (hexact : policy = .same → Plane.Exact image.plane request.extent request.stride) :
    ((∃ outputs h, kind.rule ctx ws g = .ok outputs h) ↔
      (policy = .valid → request.extent.Fits image.plane)) ∧
    ∀ outputs h, kind.rule ctx ws g = .ok outputs h →
      ∃ y, outputs[0]? = some (some y) ∧
        h.type? y = some ⟨image.element, format.arrange image.batch request.count
          (policy.outputs image.plane.vertical request.extent.vertical request.stride.vertical)
          (policy.outputs image.plane.horizontal request.extent.horizontal
            request.stride.horizontal)⟩ := by
  obtain ⟨hextent, hstride⟩ := hrequest.positive
  have hiff : ∀ positions, _ := fun positions =>
    @planeRun_iff policy image.plane request.extent request.stride positions himage hextent hstride
      hexact
  -- Where the window fits, the rule succeeds with the sizes of the policy.
  have hfits : (policy = .valid → request.extent.Fits image.plane) →
      ∃ outputs h y, kind.rule ctx ws g = .ok outputs h ∧ outputs[0]? = some (some y) ∧
        h.type? y = some ((image.resized request.count
          (policy.positions image.plane request.extent request.stride)).inFormat format) := by
    intro hfits
    obtain ⟨below, above, hplane⟩ := (hiff _).mpr ⟨hfits, rfl⟩
    obtain ⟨outputs, h, hrun, x, y, data, window, -, hy, hlowered⟩ :=
      hrequest.run hformat hpolicy hoperands hslots hplane
    exact ⟨outputs, h, y, hrun, hy, hlowered.outputType⟩
  -- Where the rule succeeds, the window has run and so it fits.
  have hran : ∀ outputs h, kind.rule ctx ws g = .ok outputs h →
      policy = .valid → request.extent.Fits image.plane := by
    intro outputs h hrun
    obtain ⟨-, below, above, positions, hplane⟩ :=
      hrequest.planeRun hformat hpolicy hoperands hrun
    exact ((hiff positions).mp ⟨below, above, hplane⟩).1
  constructor
  · constructor
    · rintro ⟨outputs, h, hrun⟩
      exact hran outputs h hrun
    · intro h
      obtain ⟨outputs, h, y, hrun, -⟩ := hfits h
      exact ⟨outputs, h, hrun⟩
  · intro outputs h hrun
    obtain ⟨outputs', h', y, hrun', hy, htype⟩ := hfits (hran outputs h hrun)
    obtain ⟨rfl, rfl⟩ := EStateM.Result.ok.inj (hrun.symm.trans hrun')
    exact ⟨y, hy, htype⟩

/-- A convolution whose filters have their elements laid apart. -/
def dilatedConvolution (padding : String) : Context :=
  ⟨{ name := "conv", op := "Conv2D", index := 2, inputs := 2,
     attrs := ⟨[("strides", .ints [1, 2, 3, 1]), ("dilations", .ints [1, 3, 2, 1]),
       ("padding", .text padding)]⟩ }, {}, []⟩

/-- An image of five rows and seven columns, and four filters of three rows and two columns. -/
def imageAndFilters : Graph := .ofParameters [⟨.f32, [1, 5, 7, 2]⟩, ⟨.f32, [3, 2, 2, 4]⟩]

/-- The dilated filters extend over seven rows, more than the image has: the convolution pads the
image, or it is refused. -/
theorem dilatedConvolution_sizes :
    (∃ outputs h y,
      OpKind.convolve.rule (dilatedConvolution "SAME") [0, 1] imageAndFilters = .ok outputs h ∧
        outputs[0]? = some (some y) ∧ h.type? y = some ⟨.f32, [1, 3, 3, 4]⟩) ∧
    ¬ ∃ outputs h,
      OpKind.convolve.rule (dilatedConvolution "VALID") [0, 1] imageAndFilters =
        .ok outputs h := by
  have hoperands : WindowOperands imageAndFilters .channelsLast ⟨.f32, 1, 2, ⟨5, 7⟩⟩ .convolve
      (some ⟨.f32, [3, 2, 2, 4]⟩) [0, 1] := .convolve rfl rfl
  have hrequest : ∀ padding, Requests (dilatedConvolution padding) .channelsLast
      ⟨.f32, 1, 2, ⟨5, 7⟩⟩ .convolve (some ⟨.f32, [3, 2, 2, 4]⟩)
      ⟨⟨7, 3⟩, ⟨2, 3⟩, 4, convolutionOp [2, 3] [3, 2]⟩ := fun padding =>
    @Requests.convolve _ _ _ ⟨3, 2⟩ ⟨2, 3⟩ ⟨3, 2⟩ 4 rfl ⟨by decide, 1, 1, rfl⟩
      (.inl ⟨by decide, 1, 1, rfl⟩)
  have hexact : Plane.Exact ⟨5, 7⟩ ⟨7, 3⟩ ⟨2, 3⟩ :=
    ⟨⟨by decide, by decide, by decide,
        SameAxis.not_overflows (by decide) (by decide) (by decide)⟩,
      ⟨by decide, by decide, by decide,
        SameAxis.not_overflows (by decide) (by decide) (by decide)⟩⟩
  constructor
  · have hformat : DataFormat.of (dilatedConvolution "SAME") = .ok .channelsLast := rfl
    have hpolicy : paddingPolicy (dilatedConvolution "SAME") = .ok .same := rfl
    have hsizes := window_output_sizes hformat hpolicy hoperands (hrequest _) (by decide)
      (by decide) fun _ => hexact
    obtain ⟨outputs, h, hrun⟩ := hsizes.1.mpr nofun
    obtain ⟨y, hy, htype⟩ := hsizes.2 outputs h hrun
    exact ⟨outputs, h, y, hrun, hy, htype⟩
  · have hformat : DataFormat.of (dilatedConvolution "VALID") = .ok .channelsLast := rfl
    have hpolicy : paddingPolicy (dilatedConvolution "VALID") = .ok .valid := rfl
    have hsizes := window_output_sizes hformat hpolicy hoperands (hrequest _) (by decide)
      (by decide) nofun
    rw [hsizes.1]
    decide

end GraphLowering
