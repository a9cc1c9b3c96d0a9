import Mathlib
import GraphLowering.Proofs.Layouts

/-!
# Windows along the spatial axes

A window has as many positions along an axis as there are strides at which it still lies on the
padded axis. What is computed for lists of sizes is read here for the two spatial axes of an image.

* `PaddingPolicy.axis` — the padding of one axis.
* `AxisRun`, `PlaneRun` — the padding and the number of positions of a window along one spatial axis,
  and along both.
* `paddingMake_eq_ok`, `windowOutputs_eq_ok` — the padding and the positions of a window that runs.
-/

namespace GraphLowering

open Target

namespace Plane

def toList (p : Plane) : List Nat := [p.vertical, p.horizontal]

def Positive (p : Plane) : Prop := 0 < p.vertical ∧ 0 < p.horizontal

instance (p : Plane) : Decidable p.Positive := inferInstanceAs (Decidable (_ ∧ _))

/-- The extents of a kernel whose elements lie `dilations` apart. -/
def dilated (kernel dilations : Plane) : Plane :=
  ⟨dilatedExtent kernel.vertical dilations.vertical,
    dilatedExtent kernel.horizontal dilations.horizontal⟩

theorem positive_dilated (kernel dilations : Plane) : (kernel.dilated dilations).Positive :=
  ⟨Nat.succ_pos _, Nat.succ_pos _⟩

end Plane

/-- The padding of one axis. -/
def PaddingPolicy.axis : PaddingPolicy → (size extent stride : Nat) → Except Error (Nat × Nat)
  | same, size, extent, stride => sameAxis size extent stride
  | valid, _, _, _ => .ok (0, 0)

/-- A window that moves along an axis: how the policy pads the axis, and how many positions the
window then has. -/
structure AxisRun (policy : PaddingPolicy) (size extent stride below above outputs : Nat) :
    Prop where
  padding : policy.axis size extent stride = .ok (below, above)
  fits : extent ≤ size + below + above
  outputs : outputs = (size + below + above - extent) / stride + 1

/-- A window that moves along both spatial axes. -/
structure PlaneRun (policy : PaddingPolicy) (size extent stride below above outputs : Plane) :
    Prop where
  vertical : AxisRun policy size.vertical extent.vertical stride.vertical below.vertical
    above.vertical outputs.vertical
  horizontal : AxisRun policy size.horizontal extent.horizontal stride.horizontal below.horizontal
    above.horizontal outputs.horizontal

theorem windowOutput_eq_ok {op : String} {size extent stride below above outputs : Nat}
    (hstride : 0 < stride) (hextent : 0 < extent) :
    windowOutput op size extent stride below above = .ok outputs ↔
      extent ≤ size + below + above ∧
        outputs = (size + below + above - extent) / stride + 1 := by
  by_cases hfits : extent ≤ size + below + above
  case pos =>
    have hguard : ¬ (stride = 0 ∨ extent = 0 ∨ size + below + above < extent) := by omega
    rw [windowOutput, if_neg hguard, minus_eq_ok hfits, except_ok_bind,
      quotient_eq_ok hstride.ne', except_ok_bind, except_pure_eq, Except.ok.injEq]
    simp [hfits, eq_comm]
  case neg =>
    have hguard : stride = 0 ∨ extent = 0 ∨ size + below + above < extent := by omega
    rw [windowOutput, if_pos hguard]
    simp [hfits]

theorem except_mapM_pair {ε α β : Type} (f : α → Except ε β) (a b : α) :
    [a, b].mapM f = do
      let x ← f a
      let y ← f b
      return [x, y] := by
  simp only [List.mapM_cons, List.mapM_nil, bind_assoc, pure_bind]

section Planes

variable {policy : PaddingPolicy} {size extent stride below above outputs : Plane}

theorem paddingMake_plane (hstride : stride.Positive) :
    Padding.make policy size.toList extent.toList stride.toList = do
      let vertical ← policy.axis size.vertical extent.vertical stride.vertical
      let horizontal ← policy.axis size.horizontal extent.horizontal stride.horizontal
      return ⟨[vertical.1, horizontal.1], [vertical.2, horizontal.2]⟩ := by
  have hzero : ¬ stride.toList.contains 0 = true := by
    simp [Plane.toList, hstride.1.ne, hstride.2.ne]
  unfold Padding.make
  rw [if_neg (by simp [Plane.toList]), if_neg hzero]
  cases policy with
  | valid => rfl
  | same =>
    show (List.mapM _ [0, 1] >>= _) = _
    simp only [except_mapM_pair, bind_assoc, pure_bind]
    rfl

theorem paddingMake_eq_ok (hstride : stride.Positive) {padding : Padding} :
    Padding.make policy size.toList extent.toList stride.toList = .ok padding ↔
      ∃ below above : Plane, padding = ⟨below.toList, above.toList⟩ ∧
        policy.axis size.vertical extent.vertical stride.vertical =
          .ok (below.vertical, above.vertical) ∧
        policy.axis size.horizontal extent.horizontal stride.horizontal =
          .ok (below.horizontal, above.horizontal) := by
  rw [paddingMake_plane hstride]
  constructor
  · intro h
    obtain ⟨⟨p, p'⟩, hvertical, h⟩ := except_bind_eq_ok.mp h
    obtain ⟨⟨q, q'⟩, hhorizontal, h⟩ := except_bind_eq_ok.mp h
    exact ⟨⟨p, q⟩, ⟨p', q'⟩, (Except.ok.inj h).symm, hvertical, hhorizontal⟩
  · rintro ⟨below, above, rfl, hvertical, hhorizontal⟩
    rw [hvertical, except_ok_bind, hhorizontal]
    rfl

theorem makeDilated_plane (kernel dilations : Plane) :
    Padding.makeDilated policy size.toList kernel.toList stride.toList dilations.toList =
      Padding.make policy size.toList (kernel.dilated dilations).toList stride.toList :=
  if_neg (by simp [Plane.toList])

/-- The number of positions of a window along both spatial axes. -/
def windowOutputs (op : String) (size extent stride below above : Plane) :
    Except Error (List Nat) := do
  let vertical ← windowOutput op size.vertical extent.vertical stride.vertical below.vertical
    above.vertical
  let horizontal ← windowOutput op size.horizontal extent.horizontal stride.horizontal
    below.horizontal above.horizontal
  return [vertical, horizontal]

theorem poolSizes_plane (op : String) :
    poolSizes op size.toList ⟨extent.toList, stride.toList, below.toList, above.toList⟩ =
      windowOutputs op size extent stride below above :=
  except_mapM_pair _ 0 1

theorem convolutionSizes_plane (kernel dilations : Plane) :
    convolutionSizes size.toList kernel.toList
        ⟨stride.toList, dilations.toList, below.toList, above.toList⟩ =
      windowOutputs "Convolution" size (kernel.dilated dilations) stride below above :=
  except_mapM_pair _ 0 1

/-- On axes that the policy has padded, the positions of a window are those of its run. -/
theorem windowOutputs_eq_ok {op : String} {sizes : List Nat} (hstride : stride.Positive)
    (hextent : extent.Positive)
    (hvertical : policy.axis size.vertical extent.vertical stride.vertical =
      .ok (below.vertical, above.vertical))
    (hhorizontal : policy.axis size.horizontal extent.horizontal stride.horizontal =
      .ok (below.horizontal, above.horizontal)) :
    windowOutputs op size extent stride below above = .ok sizes ↔
      ∃ outputs : Plane, sizes = outputs.toList ∧
        PlaneRun policy size extent stride below above outputs := by
  constructor
  · intro h
    obtain ⟨v, hv, h⟩ := except_bind_eq_ok.mp h
    obtain ⟨w, hw, h⟩ := except_bind_eq_ok.mp h
    obtain ⟨hfits, houtputs⟩ := (windowOutput_eq_ok hstride.1 hextent.1).mp hv
    obtain ⟨hfits', houtputs'⟩ := (windowOutput_eq_ok hstride.2 hextent.2).mp hw
    exact ⟨⟨v, w⟩, (Except.ok.inj h).symm, ⟨hvertical, hfits, houtputs⟩,
      ⟨hhorizontal, hfits', houtputs'⟩⟩
  · rintro ⟨outputs, rfl, hrun⟩
    rw [windowOutputs,
      (windowOutput_eq_ok hstride.1 hextent.1).mpr ⟨hrun.vertical.fits, hrun.vertical.outputs⟩,
      except_ok_bind,
      (windowOutput_eq_ok hstride.2 hextent.2).mpr ⟨hrun.horizontal.fits, hrun.horizontal.outputs⟩]
    rfl

end Planes

end GraphLowering
