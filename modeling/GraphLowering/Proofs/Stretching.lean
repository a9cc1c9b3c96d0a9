import Mathlib
import GraphLowering.Broadcast
import GraphLowering.Proofs.Elements

/-!
# Stretching a tensor

A tensor is stretched to a shape by at most two nodes: a reshape that drops the axes of size one that
stretch, and a broadcast that repeats the rest along them and along the axes that the tensor lacks.
Both nodes only lay elements out, so every element of the result is an element of the tensor: the one
at the same place along the axes that keep their size, and at place 0 along those that stretch.

* `Stretches` — the shapes that a shape can be stretched to, which `broadcastShapes_eq_self_iff` finds
  by broadcasting.
* `keptEntries`, `stretchEntries` — what the two nodes make of an index, axis by axis.
* `offset_keptEntries` — dropping axes of size one leaves the row-major order as it is.
* `broadcastTo_of_stretches`, `broadcastTo_of_not_stretches` — what stretching appends, and when it
  fails; `exists_broadcastTo` — the type of what it gives.
* `broadcastTo_stretches` — all of it, with the place of each element.
-/

namespace GraphLowering

open Target

/-! ### Shapes that stretch to others -/

/-- A size can be repeated up to another: it is the same, or one. -/
def StretchesTo (size wanted : Nat) : Prop := size = wanted ∨ size = 1

/-- A shape can be stretched to another: aligned at their last axes, each of its sizes can. -/
def Stretches (shape target : Shape) : Prop :=
  ∃ front back, target = front ++ back ∧ List.Forall₂ StretchesTo shape back

theorem commonSize_eq_right_iff {a b : Nat} : commonSize a b = some b ↔ StretchesTo a b := by
  unfold commonSize StretchesTo
  split
  case isTrue h => rw [Option.some.injEq]; omega
  case isFalse h =>
    split
    case isTrue h' => exact iff_of_true rfl (.inr h')
    case isFalse h' => exact iff_of_false nofun (by omega)

/-- From the last axis to the first, the sizes that the longer shape has beyond the shorter come at
the end. -/
theorem broadcastReversed_eq_right_iff {as bs : List Nat} :
    broadcastReversed as bs = some bs ↔
      ∃ back front, bs = back ++ front ∧ List.Forall₂ StretchesTo as back := by
  induction as generalizing bs with
  | nil =>
    rw [broadcastReversed]
    exact iff_of_true rfl ⟨[], bs, rfl, .nil⟩
  | cons a as ih =>
    cases bs with
    | nil =>
      refine iff_of_false (by simp [broadcastReversed]) ?_
      rintro ⟨back, front, hbs, hall⟩
      obtain ⟨b, back, -, -, rfl⟩ := List.forall₂_cons_left_iff.mp hall
      cases hbs
    | cons b bs =>
      have hhead : broadcastReversed (a :: as) (b :: bs) = some (b :: bs) ↔
          commonSize a b = some b ∧ broadcastReversed as bs = some bs := by
        rw [broadcastReversed]
        cases commonSize a b <;> cases broadcastReversed as bs <;> simp
      rw [hhead, commonSize_eq_right_iff, ih]
      constructor
      · rintro ⟨hab, back, front, rfl, hall⟩
        exact ⟨b :: back, front, rfl, .cons hab hall⟩
      · rintro ⟨back, front, hbs, hall⟩
        obtain ⟨b', back, hab, hrest, rfl⟩ := List.forall₂_cons_left_iff.mp hall
        cases hbs
        exact ⟨hab, back, front, rfl, hrest⟩

/-- A shape stretches to another iff the other is their common shape. -/
theorem broadcastShapes_eq_self_iff {shape target : Shape} :
    broadcastShapes shape target = some target ↔ Stretches shape target := by
  have hreverse : broadcastShapes shape target = some target ↔
      broadcastReversed shape.reverse target.reverse = some target.reverse := by
    rw [broadcastShapes, Option.map_eq_some_iff]
    constructor
    · rintro ⟨sizes, hsizes, rfl⟩
      rw [List.reverse_reverse] at hsizes ⊢
      exact hsizes
    · exact fun h => ⟨_, h, List.reverse_reverse target⟩
  rw [hreverse, broadcastReversed_eq_right_iff]
  constructor
  · rintro ⟨back, front, htarget, hall⟩
    refine ⟨front.reverse, back.reverse, ?_, ?_⟩
    · rw [← List.reverse_append, ← htarget, List.reverse_reverse]
    · rw [← List.reverse_reverse shape]
      exact List.forall₂_reverse_iff.mpr hall
  · rintro ⟨front, back, rfl, hall⟩
    exact ⟨back.reverse, front.reverse, List.reverse_append, List.forall₂_reverse_iff.mpr hall⟩

theorem Stretches.refl (shape : Shape) : Stretches shape shape :=
  ⟨[], shape, rfl, List.forall₂_same.mpr fun _ _ => .inl rfl⟩

/-! ### Axes that keep their size -/

/-- The entries of a list that belong to axes which keep their size. -/
def keptEntries : (shape back l : List Nat) → List Nat
  | size :: shape, wanted :: back, i :: l =>
    if size = wanted then i :: keptEntries shape back l else keptEntries shape back l
  | _, _, _ => []

/-- The entries of a list along axes which keep their size, and 0 along those that stretch. -/
def stretchEntries : (shape back l : List Nat) → List Nat
  | size :: shape, wanted :: back, i :: l =>
    (if size = wanted then i else 0) :: stretchEntries shape back l
  | _, _, _ => []

/-- The axes that stretch, where the first one has number `start`. -/
def stretchedAxes (start : Nat) (shape back : List Nat) : List Nat :=
  ((shape.zip back).zipIdx start).filterMap fun p => if p.1.1 = p.1.2 then none else some p.2

theorem stretchedAxes_cons (start size wanted : Nat) (shape back : List Nat) :
    stretchedAxes start (size :: shape) (wanted :: back) =
      if size = wanted then stretchedAxes (start + 1) shape back
      else start :: stretchedAxes (start + 1) shape back := by
  rw [stretchedAxes, List.zip_cons_cons, List.zipIdx_cons, List.filterMap_cons]
  by_cases h : size = wanted
  · simp [h, stretchedAxes]
  · simp [h, stretchedAxes]

theorem mem_stretchedAxes_bounds {start axis : Nat} {shape back : List Nat}
    (h : axis ∈ stretchedAxes start shape back) : start ≤ axis ∧ axis < start + back.length := by
  obtain ⟨p, hp, haxis⟩ := List.mem_filterMap.mp h
  obtain ⟨hle, hlt, -⟩ := List.mem_zipIdx hp
  rw [List.length_zip] at hlt
  split at haxis
  · cases haxis
  · cases haxis
    exact ⟨hle, by omega⟩

theorem stretchedAxes_nodup (start : Nat) (shape back : List Nat) :
    (stretchedAxes start shape back).Nodup := by
  induction shape generalizing start back with
  | nil => exact List.nodup_nil
  | cons size shape ih =>
    cases back with
    | nil => exact List.nodup_nil
    | cons wanted back =>
      rw [stretchedAxes_cons]
      split
      · exact ih (start + 1) back
      · refine List.nodup_cons.mpr ⟨fun hmem => ?_, ih (start + 1) back⟩
        have := (mem_stretchedAxes_bounds hmem).1
        omega

/-- The entries off the axes of a broadcast, from axis `start` on, are those which keep their size. -/
theorem sizesOff_from {shape back l : List Nat} (hback : shape.length = back.length)
    (hl : back.length = l.length) {start : Nat} {axes : List Nat}
    (haxes : ∀ axis, start ≤ axis → (axis ∈ axes ↔ axis ∈ stretchedAxes start shape back)) :
    ((l.zipIdx start).filter fun p => !axes.contains p.2).map Prod.fst =
      keptEntries shape back l := by
  induction shape generalizing back l start with
  | nil =>
    obtain rfl : back = [] := List.eq_nil_of_length_eq_zero hback.symm
    obtain rfl : l = [] := List.eq_nil_of_length_eq_zero hl.symm
    rfl
  | cons size shape ih =>
    obtain ⟨wanted, back, rfl⟩ := List.exists_cons_of_length_eq_add_one hback.symm
    obtain ⟨i, l, rfl⟩ := List.exists_cons_of_length_eq_add_one hl.symm
    have hlater : start ∉ stretchedAxes (start + 1) shape back := by
      intro hmem
      have := (mem_stretchedAxes_bounds hmem).1
      omega
    have hnext : ∀ axis, start + 1 ≤ axis →
        (axis ∈ axes ↔ axis ∈ stretchedAxes (start + 1) shape back) := by
      intro axis hle
      rw [haxes axis (by omega), stretchedAxes_cons]
      split
      · rfl
      · rw [List.mem_cons]
        exact or_iff_right (by omega)
    have hrest := ih (Nat.succ.inj hback) (Nat.succ.inj hl) hnext
    have hstart := haxes start le_rfl
    rw [stretchedAxes_cons] at hstart
    rw [List.zipIdx_cons, keptEntries, List.filter_cons]
    by_cases hkeep : size = wanted
    · rw [if_pos hkeep] at hstart ⊢
      rw [if_pos (by simp [hstart, hlater]), List.map_cons, hrest]
    · rw [if_neg hkeep] at hstart ⊢
      rw [if_neg (by simp [hstart]), hrest]

/-- The axes of the broadcast: those that the tensor lacks, and those that stretch. -/
def broadcastAxes (missing : Nat) (shape back : List Nat) : List Nat :=
  List.range missing ++ stretchedAxes missing shape back

theorem mem_broadcastAxes {missing axis : Nat} {shape back : List Nat} :
    axis ∈ broadcastAxes missing shape back ↔
      axis < missing ∨ axis ∈ stretchedAxes missing shape back := by
  rw [broadcastAxes, List.mem_append, List.mem_range]

/-- Off the axes of the broadcast an index, or a shape, has the entries which keep their size. -/
theorem sizesOff_broadcastAxes {shape back front l : List Nat} (hback : shape.length = back.length)
    (hl : back.length = l.length) :
    sizesOff (broadcastAxes front.length shape back) (front ++ l) = keptEntries shape back l := by
  have hfront : front.zipIdx.filter
      (fun p => !(broadcastAxes front.length shape back).contains p.2) = [] := by
    refine List.filter_eq_nil_iff.mpr fun p hp => ?_
    obtain ⟨-, hlt, -⟩ := List.mem_zipIdx hp
    have hmem : p.2 ∈ broadcastAxes front.length shape back :=
      mem_broadcastAxes.mpr (.inl (by omega))
    simp [hmem]
  have hsplit : sizesOff (broadcastAxes front.length shape back) (front ++ l) =
      (((front ++ l).zipIdx).filter
        fun p => !(broadcastAxes front.length shape back).contains p.2).map Prod.fst := rfl
  rw [hsplit, List.zipIdx_append, List.filter_append, hfront, List.nil_append, Nat.zero_add]
  refine sizesOff_from hback hl fun axis hle => ?_
  rw [mem_broadcastAxes]
  exact or_iff_right (by omega)

theorem broadcastAxes_nodup (missing : Nat) (shape back : List Nat) :
    (broadcastAxes missing shape back).Nodup := by
  refine List.nodup_append.mpr ⟨List.nodup_range, stretchedAxes_nodup missing shape back, ?_⟩
  intro axis haxis axis' haxis' heq
  have hlt := List.mem_range.mp haxis
  have hle := (mem_stretchedAxes_bounds haxis').1
  omega

/-! ### Dropping axes of size one -/

section Kept

variable {shape back l : List Nat} (h : List.Forall₂ StretchesTo shape back)
include h

theorem elements_keptEntries :
    Shape.elements (keptEntries shape back back) = Shape.elements shape := by
  induction h with
  | nil => rfl
  | @cons size wanted shape back hsize _ ih =>
    rw [keptEntries]
    split
    case isTrue heq => rw [Shape.elements_cons, Shape.elements_cons, ih, heq]
    case isFalse hne =>
      obtain rfl : size = 1 := hsize.resolve_left hne
      rw [Shape.elements_cons, ih, Nat.one_mul]

theorem length_keptEntries_le : (keptEntries shape back back).length ≤ shape.length := by
  induction h with
  | nil => exact le_rfl
  | cons _ _ ih =>
    rw [keptEntries]
    split
    · simpa using ih
    · rw [List.length_cons]
      omega

/-- Nothing is dropped only where nothing stretches. -/
theorem eq_of_length_keptEntries (hlength : (keptEntries shape back back).length = shape.length) :
    shape = back := by
  induction h with
  | nil => rfl
  | @cons size wanted shape back _ hrest ih =>
    rw [keptEntries] at hlength
    split at hlength
    case isTrue heq =>
      rw [heq, ih (by simpa using hlength)]
    case isFalse =>
      have hle := length_keptEntries_le hrest
      rw [List.length_cons] at hlength
      omega

theorem isIndex_stretchEntries (hl : Shape.IsIndex back l) :
    Shape.IsIndex shape (stretchEntries shape back l) := by
  induction h generalizing l with
  | nil => exact .nil
  | @cons size wanted shape back hsize _ ih =>
    obtain ⟨i, l, hi, hrest, rfl⟩ := List.forall₂_cons_right_iff.mp hl
    refine .cons ?_ (ih hrest)
    split
    case isTrue heq => omega
    case isFalse hne =>
      obtain rfl : size = 1 := hsize.resolve_left hne
      exact Nat.one_pos

/-- The kept entries of an index have the place, under the kept sizes, that the stretched index has
under all of them. -/
theorem offset_keptEntries (hl : Shape.IsIndex back l) :
    Shape.offset (keptEntries shape back back) (keptEntries shape back l) =
      Shape.offset shape (stretchEntries shape back l) := by
  induction h generalizing l with
  | nil => cases hl; rfl
  | @cons size wanted shape back hsize hsizes ih =>
    obtain ⟨i, l, -, hrest, rfl⟩ := List.forall₂_cons_right_iff.mp hl
    rw [keptEntries, keptEntries, stretchEntries, Shape.offset]
    split
    case isTrue heq => rw [Shape.offset, elements_keptEntries hsizes, ih hrest]
    case isFalse hne => rw [Nat.zero_mul, Nat.zero_add, ih hrest]

end Kept

theorem keptEntries_self {shape l : List Nat} (h : l.length = shape.length) :
    keptEntries shape shape l = l := by
  induction shape generalizing l with
  | nil =>
    obtain rfl : l = [] := List.eq_nil_of_length_eq_zero h
    rfl
  | cons size shape ih =>
    obtain ⟨i, l, rfl⟩ := List.exists_cons_of_length_eq_add_one h
    rw [keptEntries, if_pos rfl, ih (Nat.succ.inj h)]

theorem stretchEntries_self {shape l : List Nat} (h : l.length = shape.length) :
    stretchEntries shape shape l = l := by
  induction shape generalizing l with
  | nil =>
    obtain rfl : l = [] := List.eq_nil_of_length_eq_zero h
    rfl
  | cons size shape ih =>
    obtain ⟨i, l, rfl⟩ := List.exists_cons_of_length_eq_add_one h
    rw [stretchEntries, if_pos rfl, ih (Nat.succ.inj h)]

theorem getElem?_stretchEntries {shape back l : List Nat} (hback : shape.length = back.length)
    (hl : back.length = l.length) {i : Nat} (hi : i < shape.length) :
    (stretchEntries shape back l)[i]? = if shape[i]? = back[i]? then l[i]? else some 0 := by
  induction shape generalizing back l i with
  | nil => exact absurd hi (Nat.not_lt_zero i)
  | cons size shape ih =>
    obtain ⟨wanted, back, rfl⟩ := List.exists_cons_of_length_eq_add_one hback.symm
    obtain ⟨c, l, rfl⟩ := List.exists_cons_of_length_eq_add_one hl.symm
    cases i with
    | zero =>
      simp only [stretchEntries, List.getElem?_cons_zero, Option.some.injEq]
      split <;> rfl
    | succ i => exact ih (Nat.succ.inj hback) (Nat.succ.inj hl) (Nat.lt_of_succ_lt_succ hi)

/-! ### The nodes that stretch a tensor -/

section Run

variable {g : Graph} {x : Wire} {type : TensorType}

/-- What stretching appends behind a tensor that does not have the shape yet: a broadcast on the
tensor, or on a reshape of it that drops the axes which stretch. -/
inductive Stretched (g : Graph) (x : Wire) (type : TensorType) (front back : List Nat) :
    Wire → Graph → Prop where
  | direct (hsame : type.shape = back) :
    Stretched g x type front back g.size
      (g.push (.broadcast (front ++ back) (broadcastAxes front.length type.shape back)) [x]
        ⟨type.element, front ++ back⟩)
  | dropped {kept : Shape} (hkept : kept = keptEntries type.shape back back) {g' : Graph}
      (hg' : g' = g.push (.reshape (List.range type.shape.length) kept) [x] ⟨type.element, kept⟩) :
    Stretched g x type front back g'.size
      (g'.push (.broadcast (front ++ back) (broadcastAxes front.length type.shape back)) [g.size]
        ⟨type.element, front ++ back⟩)

theorem infer_stretched (front : List Nat) {shape back : List Nat}
    (hback : shape.length = back.length) (element : ElementType) :
    (Op.broadcast (front ++ back) (broadcastAxes front.length shape back)).infer
      [⟨element, keptEntries shape back back⟩] = .ok ⟨element, front ++ back⟩ := by
  have haxes : (broadcastAxes front.length shape back).Nodup ∧
      (broadcastAxes front.length shape back).all (· < (front ++ back).length) := by
    refine ⟨broadcastAxes_nodup _ _ _, List.all_eq_true.mpr fun axis haxis => ?_⟩
    rw [List.length_append, decide_eq_true_iff]
    rcases mem_broadcastAxes.mp haxis with hlt | hmem
    · omega
    · exact (mem_stretchedAxes_bounds hmem).2
  exact infer_broadcast haxes (sizesOff_broadcastAxes hback rfl)

/-- The sizes of the axes that keep theirs, listed pair by pair. -/
theorem kept_eq (shape back : List Nat) :
    ((shape.zip back).filter fun p => p.1 = p.2).map Prod.fst = keptEntries shape back back := by
  induction shape generalizing back with
  | nil => rfl
  | cons size shape ih =>
    cases back with
    | nil => rfl
    | cons wanted back =>
      rw [List.zip_cons_cons, List.filter_cons, keptEntries]
      by_cases h : size = wanted
      · simp [h, ih]
      · simp [h, ih]

theorem isPermutation_range (rank : Nat) : isPermutation (List.range rank) rank = true :=
  isPermutation_iff.mpr ⟨List.length_range, List.nodup_range, fun _ => List.mem_range.mp⟩

/-- The last steps of stretching, once the sizes have been compared. -/
theorem stretched_of_kept {front back : List Nat} (hx : g.type? x = some type)
    (h : List.Forall₂ StretchesTo type.shape back) {kept axes : List Nat}
    (hkept : kept = keptEntries type.shape back back)
    (haxes : axes = broadcastAxes front.length type.shape back) :
    ∃ y g', (if kept.length = type.shape.length then
        (pure x : Emit Wire) >>= fun y => emit (.broadcast (front ++ back) axes) [y]
      else emit (.reshape (List.range type.shape.length) kept) [x] >>= fun y =>
        emit (.broadcast (front ++ back) axes) [y]) g = .ok y g' ∧
      Stretched g x type front back y g' := by
  subst hkept haxes
  have hbroadcast := infer_stretched front h.length_eq type.element
  split
  case isTrue hlength =>
    have hsame := eq_of_length_keptEntries h hlength
    have hself : keptEntries type.shape back back = type.shape := by
      rw [← hsame, keptEntries_self rfl]
    rw [hself] at hbroadcast
    rw [Step.bind_of_ok (show (pure x : Emit Wire) g = .ok x g from rfl)]
    exact ⟨_, _, emit_of_type hx hbroadcast, .direct hsame⟩
  case isFalse =>
    have hreshape := infer_reshape (isPermutation_range _) (elements_keptEntries h).symm
    rw [Step.bind_of_ok (emit_of_type hx hreshape)]
    exact ⟨_, _, emit_of_type (g := g.push _ _ _) (Graph.type?_push_self ..) hbroadcast,
      .dropped rfl rfl⟩

/-- A tensor that stretches to another shape is stretched by one node or two. -/
theorem broadcastTo_of_stretches (ctx : Context) {front back : List Nat}
    (hx : g.type? x = some type) (hne : type.shape ≠ front ++ back)
    (h : List.Forall₂ StretchesTo type.shape back) :
    ∃ y g', broadcastTo ctx x (front ++ back) g = .ok y g' ∧ Stretched g x type front back y g' := by
  have hlength : (front ++ back).length = front.length + type.shape.length := by
    rw [List.length_append, h.length_eq]
  have hminus : (liftM (minus (front ++ back).length type.shape.length) : Emit Nat) g =
      .ok front.length g := by
    rw [minus_eq_ok (by omega), hlength, Nat.add_sub_cancel]
    rfl
  rw [broadcastTo, Step.bind_of_ok (shapeOf_of_type? hx)]
  dsimp only
  rw [if_neg hne, if_neg (by omega), Step.bind_of_ok hminus, List.drop_left]
  split
  case isTrue hany =>
    obtain ⟨⟨size, wanted⟩, hmem, hbad⟩ := List.any_eq_true.mp hany
    have hgood : StretchesTo size wanted := (List.forall₂_iff_zip.mp h).2 hmem
    simp only [StretchesTo] at hgood
    simp at hbad
    omega
  case isFalse => exact stretched_of_kept hx h (kept_eq _ _) rfl

theorem broadcastTo_of_not_stretches (ctx : Context) {target : Shape} (hx : g.type? x = some type)
    (h : ¬ Stretches type.shape target) : ∃ e, broadcastTo ctx x target g = .error e g := by
  rw [broadcastTo, Step.bind_of_ok (shapeOf_of_type? hx)]
  dsimp only
  split
  case isTrue heq => exact absurd (heq ▸ Stretches.refl type.shape) h
  case isFalse =>
    split
    case isTrue => exact ⟨_, rfl⟩
    case isFalse hle =>
      have hminus : (liftM (minus target.length type.shape.length) : Emit Nat) g =
          .ok (target.length - type.shape.length) g := by
        rw [minus_eq_ok (by omega)]
        rfl
      rw [Step.bind_of_ok hminus]
      split
      case isTrue => exact ⟨_, rfl⟩
      case isFalse hany =>
        -- no aligned pair has been refused, so the shapes do stretch
        refine absurd ⟨target.take (target.length - type.shape.length), _,
          (List.take_append_drop _ target).symm, List.forall₂_iff_zip.mpr ⟨?_, ?_⟩⟩ h
        · rw [List.length_drop]
          omega
        · intro size wanted hmem
          by_contra hbad
          refine hany (List.any_eq_true.mpr ⟨(size, wanted), hmem, ?_⟩)
          simp only [StretchesTo, not_or] at hbad
          simp [hbad]

namespace Stretched

variable {h : Graph} {y : Wire} {front back : List Nat}

theorem type? (hs : Stretched g x type front back y h) :
    h.type? y = some ⟨type.element, front ++ back⟩ := by
  cases hs with
  | direct => exact Graph.type?_push_self ..
  | dropped => exact Graph.type?_push_self ..

theorem le (hs : Stretched g x type front back y h) : g ≤ h := by
  cases hs with
  | direct => exact Graph.le_push g _ _ _
  | dropped _ hg' =>
    subst hg'
    exact (Graph.le_push g _ _ _).trans (Graph.le_push _ _ _ _)

theorem size_le (hs : Stretched g x type front back y h) : h.size ≤ g.size + 2 := by
  cases hs with
  | direct =>
    rw [Graph.size_push]
    omega
  | dropped _ hg' => rw [Graph.size_push, hg', Graph.size_push]

/-- Each element of a stretched tensor is the one at the stretched index. -/
theorem element {α : Type} (hs : Stretched g x type front back y h) (hx : g.type? x = some type)
    (hall : List.Forall₂ StretchesTo type.shape back) (given : Wire → List Nat → α) {j l : List Nat}
    (hj : j.length = front.length) (hl : Shape.IsIndex back l) :
    h.element given y (j ++ l) = h.element given x (stretchEntries type.shape back l) := by
  have horigin : ∀ shape, (Op.broadcast (front ++ back)
      (broadcastAxes front.length type.shape back)).origin? shape (j ++ l) =
        some (keptEntries type.shape back l) := by
    intro shape
    rw [Op.origin?, ← hj, sizesOff_broadcastAxes hall.length_eq hl.length_eq.symm]
  cases hs with
  | direct hsame =>
    have hlength : l.length = type.shape.length := by rw [hsame, hl.length_eq]
    rw [Graph.element_of_pushed hx le_rfl (horigin _), ← hsame, keptEntries_self hlength,
      stretchEntries_self hlength]
  | dropped hkept hg' =>
    subst hg' hkept
    rw [Graph.element_of_pushed (Graph.type?_push_self g _ _ _) le_rfl (horigin _)]
    refine Graph.element_of_pushed hx (Graph.le_push _ _ _ _) ?_
    exact Op.origin?_reshape_range _ _ (isIndex_stretchEntries hall hl) (offset_keptEntries hall hl)

end Stretched

/-- A tensor of the shape asked for is stretched by nothing. -/
theorem broadcastTo_self (ctx : Context) (hx : g.type? x = some type) :
    broadcastTo ctx x type.shape g = .ok x g := by
  rw [broadcastTo, Step.bind_of_ok (shapeOf_of_type? hx)]
  dsimp only
  rw [if_pos rfl]
  rfl

/-- A tensor that stretches to a shape is stretched to it, and keeps its element type. -/
theorem exists_broadcastTo (ctx : Context) {target : Shape} (hx : g.type? x = some type)
    (hs : Stretches type.shape target) :
    ∃ y h, broadcastTo ctx x target g = .ok y h ∧ g ≤ h ∧
      h.type? y = some ⟨type.element, target⟩ := by
  by_cases heq : type.shape = target
  · subst heq
    exact ⟨x, g, broadcastTo_self ctx hx, le_rfl, hx⟩
  · obtain ⟨front, back, rfl, hall⟩ := hs
    obtain ⟨y, h, hrun, hstretched⟩ := broadcastTo_of_stretches ctx hx heq hall
    exact ⟨y, h, hrun, hstretched.le, hstretched.type?⟩

end Run

/-! ### All elements -/

/-- Index `k` of a tensor is the one from which a stretched tensor takes its element at index `j`. The
indices are aligned at their last axes; they agree along an axis that keeps its size, and along an
axis that stretches the element is the first. -/
structure StretchedFrom (shape target : Shape) (j k : List Nat) : Prop where
  index : shape.IsIndex k
  entries : ∀ i < shape.length, k[i]? =
    if shape[i]? = target[target.length - shape.length + i]? then
      j[target.length - shape.length + i]?
    else some 0

theorem StretchedFrom.refl {shape : Shape} {j : List Nat} (hj : shape.IsIndex j) :
    StretchedFrom shape shape j j := by
  refine ⟨hj, fun i _ => ?_⟩
  rw [Nat.sub_self, Nat.zero_add, if_pos rfl]

theorem stretchedFrom_append {shape front back j l : List Nat}
    (h : List.Forall₂ StretchesTo shape back) (hj : j.length = front.length)
    (hl : Shape.IsIndex back l) :
    StretchedFrom shape (front ++ back) (j ++ l) (stretchEntries shape back l) := by
  refine ⟨isIndex_stretchEntries h hl, fun i hi => ?_⟩
  have hmissing : (front ++ back).length - shape.length = front.length := by
    rw [List.length_append, h.length_eq, Nat.add_sub_cancel]
  rw [hmissing, List.getElem?_append_right (by omega), List.getElem?_append_right (by omega), hj,
    Nat.add_sub_cancel_left, getElem?_stretchEntries h.length_eq hl.length_eq.symm hi]

/-- An index of a shape in two parts. -/
theorem isIndex_append {front back j : List Nat} (h : Shape.IsIndex (front ++ back) j) :
    ∃ first rest, j = first ++ rest ∧ first.length = front.length ∧ Shape.IsIndex back rest := by
  refine ⟨j.take front.length, j.drop front.length, (List.take_append_drop _ j).symm, ?_, ?_⟩
  · rw [List.length_take, h.length_eq, List.length_append]
    omega
  · exact List.forall₂_drop_append j front back h

/-- **Stretching is broadcasting.** A tensor is stretched to a shape iff that is the common shape of
the two; a tensor that cannot be stretched leaves the arena as it was. Stretching appends two nodes at
most and gives a wire of that shape, with the element type of the tensor. Whatever the elements of
the other tensors are, each element of the result is the element of the tensor at the place along the
axes that keep their size, and at the first place along the axes that stretch. -/
theorem broadcastTo_stretches {α : Type} (ctx : Context) {g : Graph} {x : Wire} {type : TensorType}
    (hx : g.type? x = some type) (target : Shape) :
    ((∃ y h, broadcastTo ctx x target g = .ok y h) ↔
      broadcastShapes type.shape target = some target) ∧
    (∀ e h, broadcastTo ctx x target g = .error e h → h = g) ∧
    ∀ y h, broadcastTo ctx x target g = .ok y h →
      g ≤ h ∧ h.size ≤ g.size + 2 ∧ h.type? y = some ⟨type.element, target⟩ ∧
      ∀ (given : Wire → List Nat → α) (j : List Nat), target.IsIndex j →
        ∃ k, StretchedFrom type.shape target j k ∧
          h.element given y j = h.element given x k := by
  rw [broadcastShapes_eq_self_iff]
  by_cases hs : Stretches type.shape target
  · by_cases heq : type.shape = target
    · -- nothing is appended where the tensor has the shape already
      subst heq
      rw [broadcastTo_self ctx hx]
      refine ⟨iff_of_true ⟨x, g, rfl⟩ hs, nofun, ?_⟩
      rintro _ _ ⟨⟩
      exact ⟨le_rfl, by omega, hx, fun given j hj => ⟨j, .refl hj, rfl⟩⟩
    · obtain ⟨front, back, rfl, hall⟩ := hs
      obtain ⟨y, h, hrun, hstretched⟩ := broadcastTo_of_stretches ctx hx heq hall
      rw [hrun]
      refine ⟨iff_of_true ⟨y, h, rfl⟩ ⟨front, back, rfl, hall⟩, nofun, ?_⟩
      rintro _ _ ⟨⟩
      refine ⟨hstretched.le, hstretched.size_le, hstretched.type?, fun given j hj => ?_⟩
      obtain ⟨first, rest, rfl, hfirst, hrest⟩ := isIndex_append hj
      exact ⟨_, stretchedFrom_append hall hfirst hrest,
        hstretched.element hx hall given hfirst hrest⟩
  · obtain ⟨e, hrun⟩ := broadcastTo_of_not_stretches ctx hx hs
    rw [hrun]
    refine ⟨iff_of_false nofun hs, ?_, nofun⟩
    rintro _ _ ⟨⟩
    rfl

/-- An arena with a tensor that has two axes of size one. -/
def unitAxes : Graph := .ofParameters [⟨.f32, [2, 1, 3, 1]⟩]

/-- The tensor with one of its axes of size one stretched and the other kept, behind a new axis. -/
def stretchedUnits : Graph :=
  (unitAxes.push (.reshape [0, 1, 2, 3] [2, 3, 1]) [0] ⟨.f32, [2, 3, 1]⟩).push
    (.broadcast [5, 2, 4, 3, 1] [0, 2]) [1] ⟨.f32, [5, 2, 4, 3, 1]⟩

/-- The context of a node that adds. -/
def sumContext : Context := ⟨{ name := "sum", op := "Add", index := 0 }, {}, []⟩

/-- An element of the stretched tensor, and a shape that the tensor does not stretch to. -/
theorem unitAxes_stretched :
    broadcastTo sumContext 0 [5, 2, 4, 3, 1] unitAxes = .ok 2 stretchedUnits ∧
    (∀ given : Wire → List Nat → Nat,
      stretchedUnits.element given 2 [4, 1, 3, 2, 0] = given 0 [1, 0, 2, 0]) ∧
    ¬ ∃ y h, broadcastTo sumContext 0 [2, 4, 6, 1] unitAxes = .ok y h := by
  have hx : unitAxes.type? 0 = some ⟨.f32, [2, 1, 3, 1]⟩ := rfl
  have hrun : broadcastTo sumContext 0 [5, 2, 4, 3, 1] unitAxes = .ok 2 stretchedUnits := by rfl
  refine ⟨hrun, fun given => ?_, ?_⟩
  · obtain ⟨-, -, hresult⟩ := broadcastTo_stretches (α := Nat) sumContext hx [5, 2, 4, 3, 1]
    obtain ⟨-, -, -, helement⟩ := hresult _ _ hrun
    obtain ⟨k, hfrom, heq⟩ := helement given [4, 1, 3, 2, 0] (by decide)
    have hk : k = [1, 0, 2, 0] := by
      refine List.ext_getElem hfrom.index.length_eq fun i hi (hlt : i < 4) => ?_
      have hentry := hfrom.entries i hlt
      rw [List.getElem?_eq_getElem hi] at hentry
      interval_cases i <;> exact Option.some.inj hentry
    rw [heq, hk, Graph.element]
    rfl
  · rw [(broadcastTo_stretches (α := Nat) sumContext hx [2, 4, 6, 1]).1]
    decide

end GraphLowering
