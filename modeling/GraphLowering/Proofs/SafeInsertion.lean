import Mathlib
import GraphLowering.Proofs.Arena
import GraphLowering.Proofs.Outcome

/-!
# Inserting any op on any wires

Inference takes shapes and lists of operands apart by their form, so many of its reads cannot miss.
Here the same inference is written with a checked read for each size, each operand and each node,
and with checked differences and quotients throughout. Each check could break a promise on its own;
only the tests before it keep it from doing so. Stepwise inference gives the same answer as
inference, and inference ends with a type or a mismatch. So none of the checks ever fails, whatever
the op, its attributes and its wires are.

* `entriesBefore`, `withEntry` — the front of a list, and a list with another entry, checked.
* `Stepwise.checkAxes`, `Stepwise.isPermutation`, `Stepwise.inferDot`, … — the parts of inference.
* `Stepwise.infer`, `Stepwise.emit` — inference and insertion with every access checked.
* `Stepwise.infer_eq` — stepwise inference is inference.
* `insertion_never_faults` — an insertion appends one node or reports a mismatch.
-/

namespace GraphLowering

open Target

/-! ### Checked parts of a list -/

/-- The entries of a list before a position. -/
def entriesBefore {α : Type} (xs : List α) (i : Nat) : Except Error (List α) :=
  if i ≤ xs.length then .ok (xs.take i) else .error (.internal (.position i xs.length))

/-- The list with another entry at a position. -/
def withEntry {α : Type} (xs : List α) (i : Nat) (x : α) : Except Error (List α) :=
  if i < xs.length then .ok (xs.set i x) else .error (.internal (.position i xs.length))

theorem entriesBefore_eq_ok {α : Type} {xs : List α} {i : Nat} (h : i ≤ xs.length) :
    entriesBefore xs i = .ok (xs.take i) := if_pos h

theorem entriesFrom_eq_ok {α : Type} {xs : List α} {i : Nat} (h : i ≤ xs.length) :
    entriesFrom xs i = .ok (xs.drop i) := if_pos h

theorem withEntry_eq_ok {α : Type} {xs : List α} {i : Nat} (h : i < xs.length) (x : α) :
    withEntry xs i x = .ok (xs.set i x) := if_pos h

/-- Checks that all fail in one way fail in that way if one of them does. -/
theorem forM_checks {α : Type} {l : List α} {check : α → Except Error Unit} {e : Error}
    {bad : α → Prop} [DecidablePred bad]
    (h : ∀ a ∈ l, check a = if bad a then .error e else .ok ()) :
    l.forM check = if ∃ a ∈ l, bad a then .error e else .ok () := by
  induction l with
  | nil =>
    rw [if_neg (by simp)]
    rfl
  | cons a l ih =>
    have hrest := ih fun b hb => h b (List.mem_cons_of_mem a hb)
    rw [show (a :: l).forM check = (check a >>= fun _ => l.forM check) from rfl,
      h a List.mem_cons_self]
    by_cases ha : bad a
    · rw [if_pos ha, if_pos ⟨a, List.mem_cons_self, ha⟩]
      rfl
    · rw [if_neg ha, except_ok_bind, hrest]
      simp [ha]

namespace Target

namespace Stepwise

/-! ### Stepwise inference -/

/-- The type of the node on a wire. -/
def nodeType (g : Graph) (w : Wire) : Except Error TensorType := do
  let v ← entryAt g.nodes.toList w
  return v.type

/-- The type of the operand at a position. -/
def operand (g : Graph) (ws : List Wire) (i : Nat) : Except Error TensorType := do
  nodeType g (← entryAt ws i)

/-- An op takes so many operands. -/
def needOperands (op : Op) (ws : List Wire) (count : Nat) : Except Error Unit :=
  if ws.length ≠ count then .error (.mismatch (.operandCount op.name count ws.length)) else .ok ()

/-- Each axis is below the rank and not among the axes before it. -/
def checkAxes (op : String) (axes : List Nat) (rank : Nat) : Except Error Unit :=
  axes.zipIdx.forM fun (axis, i) => do
    let before ← entriesBefore axes i
    if rank ≤ axis ∨ axis ∈ before then
      throw (.mismatch (.axisList op axes rank))

/-- Marks numbers one after the other, as long as each of them has a mark that is not set. -/
def marksFresh : (marks : List Bool) → List Nat → Except Error Bool
  | _, [] => return true
  | marks, i :: rest => do
    if i < marks.length then
      if ← entryAt marks i then return false
      marksFresh (← withEntry marks i true) rest
    else return false

/-- Whether `order` lists every number below `rank` once. -/
def isPermutation (order : List Nat) (rank : Nat) : Except Error Bool :=
  if order.length = rank then marksFresh (List.replicate rank false) order else .ok false

/-- The type of a contraction of the last axis of `a` with the first axis of `b`. -/
def inferDot (a b : TensorType) : Except Error TensorType := do
  if a.element ≠ b.element then
    throw (.mismatch (.dotElements a.element b.element))
  match a.shape.getLast?, b.shape.head? with
  | some last, some first =>
    if last ≠ first then
      throw (.mismatch (.dotAxes a.shape b.shape))
    let front ← entriesBefore a.shape (← minus a.shape.length 1)
    return ⟨a.element, front ++ (← entriesFrom b.shape 1)⟩
  | _, _ => throw (.mismatch .dotRank)

/-- Whether an operand agrees with the first one off an axis. -/
def compatible (head operand : TensorType) (axis : Nat) : Bool :=
  operand.element = head.element && operand.shape.length = head.shape.length &&
    (operand.shape.zip head.shape).zipIdx.all fun ((x, y), d) => d = axis || x = y

/-- Adds the size of an operand to that of the concatenation. -/
def joinOperand (g : Graph) (head : TensorType) (axis : Nat) (shape : Shape) (w : Wire) :
    Except Error Shape := do
  let operand ← nodeType g w
  if ¬ compatible head operand axis then
    throw (.mismatch (.concatOperand operand.element operand.shape head.element head.shape axis))
  let total ← entryAt shape axis
  withEntry shape axis (total + (← entryAt operand.shape axis))

/-- The type of a concatenation. -/
def inferConcat (g : Graph) (axis : Nat) (ws : List Wire) : Except Error TensorType :=
  match ws.head? with
  | none => .error (.mismatch .concatEmpty)
  | some first => do
    let head ← nodeType g first
    if head.shape.length ≤ axis then
      throw (.mismatch (.concatAxis axis head.shape.length))
    let empty ← withEntry head.shape axis 0
    return ⟨head.element, ← ws.foldlM (joinOperand g head axis) empty⟩

/-- The number of spatial axes. -/
def spatialRank (op : String) (shape : Shape) : Except Error Nat :=
  if shape.length < 3 then .error (.mismatch (.windowData op shape)) else minus shape.length 2

/-- The extent of a kernel of `size` elements that lie `dilation` apart. -/
def dilatedExtent (size dilation : Nat) : Except Error Nat := do
  return (← minus (max size 1) 1) * dilation + 1

/-- The spatial sizes of a convolution of data and filters of the given shapes. -/
def convolutionSizes (rank : Nat) (data filters : Shape) (w : ConvolutionWindow) :
    Except Error (List Nat) :=
  (List.range rank).mapM fun d => do
    let extent ← dilatedExtent (← entryAt filters (2 + d)) (← entryAt w.dilations d)
    windowOutput "Convolution" (← entryAt data (2 + d)) extent (← entryAt w.strides d)
      (← entryAt w.below d) (← entryAt w.above d)

/-- The spatial sizes of a pooling op on data of the given shape. -/
def poolSizes (op : String) (rank : Nat) (data : Shape) (w : PoolWindow) :
    Except Error (List Nat) :=
  (List.range rank).mapM fun d => do
    windowOutput op (← entryAt data (2 + d)) (← entryAt w.window d) (← entryAt w.strides d)
      (← entryAt w.below d) (← entryAt w.above d)

/-- The type of a convolution of `data` with `filters`. -/
def inferConvolution (w : ConvolutionWindow) (data filters : TensorType) :
    Except Error TensorType := do
  let rank ← spatialRank "Convolution" data.shape
  if filters.shape.length ≠ data.shape.length then
    throw (.mismatch (.convolutionFilters filters.shape data.shape))
  if (← entryAt filters.shape 1) ≠ (← entryAt data.shape 1) then
    throw (.mismatch (.convolutionFilters filters.shape data.shape))
  if data.element ≠ filters.element then
    throw (.mismatch .convolutionElements)
  checkWindow "Convolution" rank [w.strides, w.dilations, w.below, w.above]
  let batch ← entryAt data.shape 0
  let count ← entryAt filters.shape 0
  return ⟨data.element, batch :: count :: (← convolutionSizes rank data.shape filters.shape w)⟩

/-- The type of a pooling op over `data`. -/
def inferPool (op : String) (w : PoolWindow) (data : TensorType) : Except Error TensorType := do
  let rank ← spatialRank op data.shape
  checkWindow op rank [w.window, w.strides, w.below, w.above]
  let batch ← entryAt data.shape 0
  let channels ← entryAt data.shape 1
  return ⟨data.element, batch :: channels :: (← poolSizes op rank data.shape w)⟩

/-- The type of an op's result on wires of the arena. -/
def infer (g : Graph) (op : Op) (ws : List Wire) : Except Error TensorType :=
  match op with
  | .parameter _ | .constant _ => .error (.mismatch (.leafOp op.name))
  | .binary _ => do
    needOperands op ws 2
    let a ← operand g ws 0
    let b ← operand g ws 1
    if a.shape ≠ b.shape ∨ a.element ≠ b.element then
      throw (.mismatch (.operandsDiffer op.name a.element a.shape b.element b.shape))
    return ⟨a.element, a.shape⟩
  | .unary _ => do
    needOperands op ws 1
    operand g ws 0
  | .convert element => do
    needOperands op ws 1
    return ⟨element, (← operand g ws 0).shape⟩
  | .dot => do
    needOperands op ws 2
    let a ← operand g ws 0
    let b ← operand g ws 1
    inferDot a b
  | .broadcast shape axes => do
    needOperands op ws 1
    let a ← operand g ws 0
    checkAxes op.name axes shape.length
    if sizesOff axes shape ≠ a.shape then
      throw (.mismatch (.broadcast a.shape shape axes))
    return ⟨a.element, shape⟩
  | .reshape order shape => do
    needOperands op ws 1
    let a ← operand g ws 0
    if ¬ (← isPermutation order a.shape.length) then
      throw (.mismatch (.notPermutation order a.shape.length))
    if a.shape.elements ≠ shape.elements then
      throw (.mismatch (.reshape a.shape shape))
    return ⟨a.element, shape⟩
  | .slice lower upper strides => do
    needOperands op ws 1
    let a ← operand g ws 0
    let rank := a.shape.length
    if lower.length ≠ rank ∨ upper.length ≠ rank ∨ strides.length ≠ rank then
      throw (.mismatch (.sliceRank rank))
    return ⟨a.element, ← (List.range rank).mapM (sliceAxis a.shape lower upper strides)⟩
  | .concat axis => inferConcat g axis ws
  | .sum axes => do
    needOperands op ws 1
    let a ← operand g ws 0
    checkAxes op.name axes a.shape.length
    return ⟨a.element, sizesOff axes a.shape⟩
  | .softmax axes => do
    needOperands op ws 1
    let a ← operand g ws 0
    checkAxes op.name axes a.shape.length
    return a
  | .convolution w => do
    needOperands op ws 2
    let data ← operand g ws 0
    let filters ← operand g ws 1
    inferConvolution w data filters
  | .maxPool w | .avgPool w _ => do
    needOperands op ws 1
    inferPool op.name w (← operand g ws 0)

/-- Appends an op on wires of the arena, or reports the first wire that is not in it. -/
def emit (op : Op) (ws : List Wire) : Emit Wire := do
  let g ← get
  match ws.find? (g.size ≤ ·) with
  | some w => throw (.mismatch (.noNode op.name w))
  | none =>
    let type ← infer g op ws
    emitNode op ws type

/-! ### The checks on lists of axes -/

theorem nodup_iff_notMem_take {l : List Nat} :
    l.Nodup ↔ ∀ i x, l[i]? = some x → x ∉ l.take i := by
  rw [List.nodup_iff_getElem?_ne_getElem?]
  constructor
  · intro h i x hi hmem
    obtain ⟨j, hj⟩ := List.mem_iff_getElem?.mp hmem
    rw [List.getElem?_take] at hj
    split at hj
    case isTrue hlt => exact h j i hlt (List.getElem?_eq_some_iff.mp hi).1 (hj.trans hi.symm)
    case isFalse => cases hj
  · intro h i j hlt hj heq
    have hx : l[j]? = some l[j] := List.getElem?_eq_getElem hj
    refine h j _ hx (List.mem_iff_getElem?.mpr ⟨i, ?_⟩)
    rw [List.getElem?_take, if_pos hlt, heq, hx]

theorem checkAxes_eq (op : String) (axes : List Nat) (rank : Nat) :
    checkAxes op axes rank = Target.checkAxes op axes rank := by
  -- an axis is bad at its position, so no two bad axes have to be told apart
  have hchecks : checkAxes op axes rank =
      if ∃ p ∈ axes.zipIdx, rank ≤ p.1 ∨ p.1 ∈ axes.take p.2 then
        .error (.mismatch (.axisList op axes rank)) else .ok () := by
    refine forM_checks fun (axis, i) hp => ?_
    obtain ⟨hi, -⟩ := List.getElem?_eq_some_iff.mp (List.mem_zipIdx_iff_getElem?.mp hp)
    dsimp only
    rw [entriesBefore_eq_ok hi.le, except_ok_bind]
    rfl
  have hbad : (∃ p ∈ axes.zipIdx, rank ≤ p.1 ∨ p.1 ∈ axes.take p.2) ↔
      ¬ (axes.Nodup ∧ axes.all (· < rank)) := by
    rw [nodup_iff_notMem_take, List.all_eq_true]
    constructor
    · rintro ⟨⟨axis, i⟩, hp, hrank | hbefore⟩ ⟨hfresh, hall⟩
      · have hlt := hall axis (List.fst_mem_of_mem_zipIdx hp)
        simp only [decide_eq_true_eq] at hlt
        omega
      · exact hfresh i axis (List.mem_zipIdx_iff_getElem?.mp hp) hbefore
    · intro h
      by_contra hnone
      push Not at hnone
      refine h ⟨fun i axis hi => ?_, fun axis hmem => ?_⟩
      · exact (hnone (axis, i) (List.mem_zipIdx_iff_getElem?.mpr hi)).2
      · obtain ⟨i, hi⟩ := List.mem_iff_getElem?.mp hmem
        exact decide_eq_true (hnone (axis, i) (List.mem_zipIdx_iff_getElem?.mpr hi)).1
  rw [hchecks, Target.checkAxes]
  by_cases hgood : axes.Nodup ∧ axes.all (· < rank)
  · rw [if_neg (by rw [hbad]; exact not_not.mpr hgood), if_pos hgood]
  · rw [if_pos (hbad.mpr hgood), if_neg hgood]

theorem marksFresh_eq (marks : List Bool) (numbers : List Nat) :
    marksFresh marks numbers = .ok (Target.marksFresh marks numbers) := by
  induction numbers generalizing marks with
  | nil => rfl
  | cons i rest ih =>
    rw [marksFresh, Target.marksFresh]
    by_cases hi : i < marks.length
    · have hmark : marks[i]? = some marks[i] := List.getElem?_eq_getElem hi
      rw [if_pos hi, entryAt_eq_ok hmark, except_ok_bind, hmark]
      cases marks[i] with
      | true => rfl
      | false =>
        dsimp only
        rw [if_neg Bool.false_ne_true, withEntry_eq_ok hi, except_ok_bind, ih]
    · rw [if_neg hi, List.getElem?_eq_none (by omega)]
      rfl

theorem isPermutation_eq (order : List Nat) (rank : Nat) :
    isPermutation order rank = .ok (Target.isPermutation order rank) := by
  unfold isPermutation Target.isPermutation
  by_cases hlength : order.length = rank
  · rw [if_pos hlength, marksFresh_eq]
    simp [hlength]
  · rw [if_neg hlength]
    simp [hlength]

/-! ### The parts of inference -/

theorem inferDot_eq (a b : TensorType) : inferDot a b = Target.inferDot a b := by
  unfold inferDot Target.inferDot
  by_cases helement : a.element = b.element
  · rw [if_neg (not_not.mpr helement), if_neg (not_not.mpr helement)]
    cases hlast : a.shape.getLast? with
    | none => rfl
    | some last =>
      cases hb : b.shape with
      | nil => rfl
      | cons first rest =>
        have hne : a.shape ≠ [] := by
          rintro hnil
          rw [hnil] at hlast
          cases hlast
        have hpos := List.length_pos_iff.mpr hne
        dsimp only [List.head?_cons]
        by_cases hsame : last = first
        · rw [if_neg (not_not.mpr hsame), if_neg (not_not.mpr hsame), minus_eq_ok hpos,
            except_ok_bind, entriesBefore_eq_ok (Nat.sub_le _ _), except_ok_bind,
            entriesFrom_eq_ok (by simp), except_ok_bind, List.dropLast_eq_take]
          rfl
        · rw [if_pos hsame, if_pos hsame]
          rfl
  · rw [if_pos helement, if_pos helement]
    rfl

/-- Operands that agree off the axis are those that agree once their sizes on it are dropped. -/
theorem compatible_iff {head operand : TensorType} {axis : Nat} :
    compatible head operand axis = true ↔
      operand.element = head.element ∧ operand.shape.set axis 0 = head.shape.set axis 0 := by
  simp only [compatible, Bool.and_eq_true, decide_eq_true_eq, and_assoc]
  refine and_congr_right fun _ => ?_
  constructor
  · rintro ⟨hlength, hall⟩
    refine List.ext_getElem (by simpa using hlength) fun d hd hd' => ?_
    rw [List.length_set] at hd hd'
    rw [List.getElem_set, List.getElem_set]
    by_cases hne : axis = d
    · rw [if_pos hne, if_pos hne]
    · rw [if_neg hne, if_neg hne]
      have hpair : ((operand.shape[d], head.shape[d]), d) ∈
          (operand.shape.zip head.shape).zipIdx :=
        List.mem_zipIdx_iff_getElem?.mpr (List.getElem?_zip_eq_some.mpr
          ⟨List.getElem?_eq_getElem hd, List.getElem?_eq_getElem hd'⟩)
      simpa [Ne.symm hne] using List.all_eq_true.mp hall _ hpair
  · intro hset
    refine ⟨by simpa using congrArg List.length hset, List.all_eq_true.mpr ?_⟩
    rintro ⟨⟨x, y⟩, d⟩ hmem
    obtain ⟨hx, hy⟩ := List.getElem?_zip_eq_some.mp (List.mem_zipIdx_iff_getElem?.mp hmem)
    by_cases hne : axis = d
    · simp [hne]
    · have hd := congrArg (·[d]?) hset
      simp only [List.getElem?_set_ne hne] at hd
      have hxy : x = y := Option.some.inj (hx.symm.trans (hd.trans hy))
      simp [hxy]

/-- Adds the size of an operand to that of a concatenation, on the axis alone. -/
def joinSize (head : TensorType) (axis total : Nat) (operand : TensorType) : Except Error Nat := do
  if operand.element ≠ head.element ∨ operand.shape.set axis 0 ≠ head.shape.set axis 0 then
    throw (.mismatch (.concatOperand operand.element operand.shape head.element head.shape axis))
  return total + (← entryAt operand.shape axis)

section Operands

variable {g : Graph} {ws : List Wire} {operands : List TensorType}

theorem nodeType_of_type? {w : Wire} {type : TensorType} (hw : g.type? w = some type) :
    nodeType g w = .ok type := by
  obtain ⟨v, hv, rfl⟩ := Option.map_eq_some_iff.mp hw
  rw [nodeType, entryAt_eq_ok (Array.getElem?_toList.trans hv)]
  rfl

/-- A concatenation that is joined operand by operand has the shape of the first one off the
axis. -/
theorem joinOperand_eq {head type : TensorType} {axis : Nat} {w : Wire}
    (haxis : axis < head.shape.length) (hw : g.type? w = some type) (total : Nat) :
    joinOperand g head axis (head.shape.set axis total) w =
      (joinSize head axis total type).map (head.shape.set axis) := by
  rw [joinOperand, nodeType_of_type? hw, except_ok_bind, joinSize]
  by_cases hsame : compatible head type axis = true
  · obtain ⟨helement, hset⟩ := compatible_iff.mp hsame
    have hlength : type.shape.length = head.shape.length := by
      simpa using congrArg List.length hset
    have hlt : axis < type.shape.length := by omega
    have htotal : (head.shape.set axis total)[axis]? = some total := List.getElem?_set_self haxis
    rw [if_neg (not_not.mpr hsame), if_neg (by simp [helement, hset]), entryAt_eq_ok htotal,
      except_ok_bind, entryAt_eq_ok (List.getElem?_eq_getElem hlt), except_ok_bind, except_ok_bind,
      withEntry_eq_ok (by simpa using haxis), List.set_set]
    rfl
  · have hdiffer : type.element ≠ head.element ∨
        type.shape.set axis 0 ≠ head.shape.set axis 0 := by
      rw [compatible_iff, not_and_or] at hsame
      exact hsame
    rw [if_pos hsame, if_pos hdiffer]
    rfl

theorem joinOperands_eq {head : TensorType} {axis : Nat} (haxis : axis < head.shape.length)
    (htypes : g.types ws = .ok operands) (total : Nat) :
    ws.foldlM (joinOperand g head axis) (head.shape.set axis total) =
      (operands.foldlM (joinSize head axis) total).map (head.shape.set axis) := by
  induction ws generalizing operands total with
  | nil =>
    cases htypes
    rfl
  | cons w ws ih =>
    obtain ⟨type, rest, hw, hrest, rfl⟩ := Graph.types_cons_eq_ok.mp htypes
    rw [List.foldlM_cons, List.foldlM_cons, joinOperand_eq haxis hw]
    cases joinSize head axis total type with
    | error e => rfl
    | ok next => exact ih hrest next

theorem inferConcat_eq (axis : Nat) (htypes : g.types ws = .ok operands) :
    inferConcat g axis ws = Target.inferConcat axis operands := by
  cases ws with
  | nil =>
    cases htypes
    rfl
  | cons w ws =>
    obtain ⟨head, rest, hw, -, rfl⟩ := Graph.types_cons_eq_ok.mp htypes
    simp only [inferConcat, Target.inferConcat, List.head?_cons]
    rw [nodeType_of_type? hw, except_ok_bind]
    by_cases haxis : axis < head.shape.length
    · -- the running shape is the first operand's with the running size on the axis
      rw [if_neg (not_le.mpr haxis), if_neg (not_le.mpr haxis), withEntry_eq_ok haxis,
        except_ok_bind, joinOperands_eq haxis htypes]
      show _ = (List.foldlM (joinSize head axis) 0 (head :: rest) >>= _)
      cases List.foldlM (joinSize head axis) 0 (head :: rest) with
      | error e => rfl
      | ok size => rfl
    · rw [if_pos (not_lt.mp haxis), if_pos (not_lt.mp haxis)]
      rfl

theorem forall₂_of_types (htypes : g.types ws = .ok operands) :
    List.Forall₂ (fun w type => g.type? w = some type) ws operands := by
  induction ws generalizing operands with
  | nil =>
    cases htypes
    exact .nil
  | cons w ws ih =>
    obtain ⟨type, rest, hw, hrest, rfl⟩ := Graph.types_cons_eq_ok.mp htypes
    exact .cons hw (ih hrest)

/-- The operand at a position has the type that is read for its wire. -/
theorem operand_eq (htypes : g.types ws = .ok operands) (i : Nat) :
    operand g ws i = entryAt operands i := by
  have hforall := forall₂_of_types htypes
  have hrel := forall₂_getElem? hforall i
  unfold operand entryAt
  cases hw : ws[i]? with
  | none =>
    rw [hw] at hrel
    cases htype : operands[i]? with
    | none =>
      rw [hforall.length_eq]
      rfl
    | some type =>
      rw [htype] at hrel
      cases hrel
  | some w =>
    rw [hw] at hrel
    cases htype : operands[i]? with
    | none =>
      rw [htype] at hrel
      cases hrel
    | some type =>
      rw [htype] at hrel
      cases hrel with
      | some htype => exact nodeType_of_type? htype

theorem needOne_bind (htypes : g.types ws = .ok operands) (op : Op)
    (f : TensorType → Except Error TensorType) :
    (needOperands op ws 1 >>= fun _ => operand g ws 0 >>= f) = (oneOperand op operands >>= f) := by
  rw [needOperands, (forall₂_of_types htypes).length_eq, operand_eq htypes]
  match operands with
  | [] => rfl
  | [a] => rfl
  | a :: b :: rest =>
    rw [if_pos (by simp)]
    rfl

theorem needTwo_bind (htypes : g.types ws = .ok operands) (op : Op)
    (f : TensorType → TensorType → Except Error TensorType) :
    (needOperands op ws 2 >>= fun _ => operand g ws 0 >>= fun a => operand g ws 1 >>= f a) =
      (twoOperands op operands >>= fun p => f p.1 p.2) := by
  rw [needOperands, (forall₂_of_types htypes).length_eq, operand_eq htypes, operand_eq htypes]
  match operands with
  | [] => rfl
  | [a] => rfl
  | [a, b] => rfl
  | a :: b :: c :: rest =>
    rw [if_pos (by simp)]
    rfl

end Operands

/-! ### Windows -/

/-- Behind the batch and the channels, spatial axes are counted from two on. -/
theorem entryAt_spatial {batch channels d : Nat} {image : List Nat} (hd : d < image.length) :
    entryAt (batch :: channels :: image) (2 + d) = entryAt image d := by
  have hi : image[d]? = some image[d] := List.getElem?_eq_getElem hd
  have hshift : (batch :: channels :: image)[2 + d]? = some image[d] := by
    rw [Nat.add_comm]
    exact hi
  rw [entryAt_eq_ok hi, entryAt_eq_ok hshift]

theorem dilatedExtent_eq (size dilation : Nat) :
    dilatedExtent size dilation = .ok (Target.dilatedExtent size dilation) := by
  have hsize : max size 1 - 1 = size - 1 := by omega
  rw [dilatedExtent, minus_eq_ok (le_max_right size 1), hsize]
  rfl

theorem spatialRank_of_parts (op : String) (batch channels size : Nat) (sizes : List Nat) :
    spatialRank op (batch :: channels :: size :: sizes) = .ok (size :: sizes).length := by
  rw [spatialRank, if_neg (by simp), minus_eq_ok (by simp)]
  rfl

theorem mapM_congr_mem {α β : Type} {l : List α} {f f' : α → Except Error β}
    (h : ∀ a ∈ l, f a = f' a) : l.mapM f = l.mapM f' := by
  induction l with
  | nil => rfl
  | cons a l ih =>
    rw [List.mapM_cons, List.mapM_cons, h a List.mem_cons_self,
      ih fun b hb => h b (List.mem_cons_of_mem a hb)]

section Window

variable {batch channels count depth : Nat} {image kernel : List Nat}

theorem convolutionSizes_eq (hlength : kernel.length = image.length) (w : ConvolutionWindow) :
    convolutionSizes image.length (batch :: channels :: image) (count :: depth :: kernel) w =
      Target.convolutionSizes image kernel w := by
  refine mapM_congr_mem fun d hd => ?_
  have hlt : d < image.length := List.mem_range.mp hd
  have hsize : image[d]? = some image[d] := List.getElem?_eq_getElem hlt
  have hextent : kernel[d]? = some kernel[d] := List.getElem?_eq_getElem (hlength ▸ hlt)
  simp only [entryAt_spatial hlt, entryAt_spatial (hlength ▸ hlt : d < kernel.length),
    entryAt_eq_ok hsize, entryAt_eq_ok hextent, dilatedExtent_eq, except_ok_bind]

theorem poolSizes_eq (op : String) (w : PoolWindow) :
    poolSizes op image.length (batch :: channels :: image) w = Target.poolSizes op image w := by
  refine mapM_congr_mem fun d hd => ?_
  rw [entryAt_spatial (List.mem_range.mp hd)]

end Window

theorem inferPool_eq (op : String) (w : PoolWindow) (data : TensorType) :
    inferPool op w data = Target.inferPool op w data := by
  obtain ⟨element, shape⟩ := data
  match shape with
  | [] => rfl
  | [_] => rfl
  | [_, _] => rfl
  | batch :: channels :: size :: sizes =>
    rw [inferPool, spatialRank_of_parts, except_ok_bind, poolSizes_eq]
    rfl

/-- The filters are read behind a comparison of the ranks, so they have a channel to compare. -/
theorem inferConvolution_eq (w : ConvolutionWindow) (data filters : TensorType) :
    inferConvolution w data filters = Target.inferConvolution w data filters := by
  obtain ⟨element, shape⟩ := data
  obtain ⟨element', shape'⟩ := filters
  match shape with
  | [] => rfl
  | [_] => rfl
  | [_, _] => rfl
  | batch :: channels :: size :: sizes =>
    rw [inferConvolution, spatialRank_of_parts, except_ok_bind]
    match shape' with
    | [] => rfl
    | [_] => rfl
    | count :: depth :: kernel =>
      simp only [Target.inferConvolution, spatialParts, except_ok_bind]
      by_cases hlength : kernel.length = (size :: sizes).length
      · have hranks : ¬ (count :: depth :: kernel).length ≠
            (batch :: channels :: size :: sizes).length := by simpa using hlength
        rw [if_neg hranks, convolutionSizes_eq hlength]
        by_cases hdepth : depth = channels
        · have hfit : ¬ (kernel.length ≠ (size :: sizes).length ∨ depth ≠ channels) := by
            simp [hlength, hdepth]
          rw [if_neg hfit]
          exact if_neg (not_not.mpr hdepth)
        · have hfit : kernel.length ≠ (size :: sizes).length ∨ depth ≠ channels := .inr hdepth
          rw [if_pos hfit]
          exact if_pos hdepth
      · have hranks : (count :: depth :: kernel).length ≠
            (batch :: channels :: size :: sizes).length := by simpa using hlength
        have hfit : kernel.length ≠ (size :: sizes).length ∨ depth ≠ channels := .inl hlength
        rw [if_pos hranks, if_pos hfit]
        rfl

/-! ### Inference and insertion -/

section Insertion

variable {g : Graph} {ws : List Wire} {operands : List TensorType}

/-- On wires of the arena, stepwise inference gives the answer of inference. -/
theorem infer_eq (htypes : g.types ws = .ok operands) (op : Op) :
    infer g op ws = op.infer operands := by
  cases op with
  | parameter index => rfl
  | constant value => rfl
  | binary f =>
    refine (needTwo_bind htypes _ _).trans (bind_congr fun (⟨e, s⟩, ⟨e', s'⟩) => ?_)
    dsimp only
    by_cases hsame : (⟨e, s⟩ : TensorType) = ⟨e', s'⟩
    · obtain ⟨rfl, rfl⟩ := TensorType.mk.inj hsame
      rw [if_neg (by simp), if_pos rfl]
    · have hdiffer : s ≠ s' ∨ e ≠ e' := by
        rw [TensorType.mk.injEq, not_and_or] at hsame
        exact hsame.symm
      rw [if_pos hdiffer, if_neg hsame]
      rfl
  | unary f =>
    have hread := needOne_bind htypes (.unary f) pure
    rw [bind_pure, bind_pure] at hread
    exact hread
  | convert element => exact needOne_bind htypes _ _
  | dot =>
    refine (needTwo_bind htypes _ _).trans (bind_congr fun (a, b) => ?_)
    exact inferDot_eq a b
  | broadcast shape axes =>
    refine (needOne_bind htypes _ _).trans (bind_congr fun a => ?_)
    rw [checkAxes_eq]
  | reshape order shape =>
    refine (needOne_bind htypes _ _).trans (bind_congr fun a => ?_)
    rw [isPermutation_eq, except_ok_bind]
  | slice lower upper strides => exact needOne_bind htypes _ _
  | concat axis => exact inferConcat_eq axis htypes
  | sum axes =>
    refine (needOne_bind htypes _ _).trans (bind_congr fun a => ?_)
    rw [checkAxes_eq]
  | softmax axes =>
    refine (needOne_bind htypes _ _).trans (bind_congr fun a => ?_)
    rw [checkAxes_eq]
  | convolution w =>
    refine (needTwo_bind htypes _ _).trans (bind_congr fun (data, filters) => ?_)
    exact inferConvolution_eq w data filters
  | maxPool w =>
    refine (needOne_bind htypes _ _).trans (bind_congr fun data => ?_)
    exact inferPool_eq _ w data
  | avgPool w counted =>
    refine (needOne_bind htypes _ _).trans (bind_congr fun data => ?_)
    exact inferPool_eq _ w data

/-- The wire that cannot be typed is the first one that is not in the arena. -/
theorem types_find? (g : Graph) (ws : List Wire) :
    (∃ w, g.types ws = .error w ∧ ws.find? (g.size ≤ ·) = some w) ∨
      ∃ operands, g.types ws = .ok operands ∧ ws.find? (g.size ≤ ·) = none := by
  induction ws with
  | nil => exact .inr ⟨[], rfl, rfl⟩
  | cons w ws ih =>
    rw [Graph.types, List.find?_cons]
    by_cases hw : w < g.size
    · have htype : g.type? w = some g.nodes[w].type := by
        rw [Graph.type?, Array.getElem?_eq_getElem hw]
        rfl
      rw [htype, decide_eq_false (not_le.mpr hw)]
      obtain ⟨u, htypes, hfind⟩ | ⟨operands, htypes, hfind⟩ := ih
      · exact .inl ⟨u, by rw [htypes]; rfl, hfind⟩
      · exact .inr ⟨_, by rw [htypes]; rfl, hfind⟩
    · have htype : g.type? w = none := by
        rw [Graph.type?, Array.getElem?_eq_none (not_lt.mp hw)]
        rfl
      rw [htype, decide_eq_true (not_lt.mp hw)]
      exact .inl ⟨w, rfl, rfl⟩

/-- Stepwise insertion is insertion. -/
theorem emit_eq_emit (g : Graph) (op : Op) (ws : List Wire) :
    emit op ws g = Target.emit op ws g := by
  rw [emit, Target.emit, Step.bind_of_ok (Step.get_apply g), Step.bind_of_ok (Step.get_apply g)]
  obtain ⟨w, htypes, hfind⟩ | ⟨operands, htypes, hfind⟩ := types_find? g ws
  · rw [htypes, hfind]
  · rw [htypes, hfind, infer_eq htypes]

end Insertion

end Stepwise

/-- An insertion reports a mismatch and leaves the arena as it is, or appends the op with the type
that is inferred for it. -/
theorem emit_cases (g : Graph) (op : Op) (ws : List Wire) :
    (∃ cause, emit op ws g = .error (.mismatch cause) g) ∨
      ∃ type, g.infer op ws = .ok type ∧ emit op ws g = .ok g.size (g.push op ws type) := by
  have hinfer : Yields (fun e => ∃ cause, e = .mismatch cause) (fun _ => True)
      (g.infer op ws) := by
    unfold Graph.infer
    split
    · exact .error ⟨_, rfl⟩
    · exact infer_yields (fun cause => ⟨cause, rfl⟩) op _
  rw [emit_eq]
  cases hr : g.infer op ws with
  | ok type => exact .inr ⟨type, rfl, rfl⟩
  | error e =>
    obtain ⟨cause, rfl⟩ := hinfer.of_error hr
    exact .inl ⟨cause, rfl⟩

end Target

/-- **Inserting any op on any wires is safe.** For any arena, any op with any attributes and any
list of wires, insertion with every access, difference and quotient checked is insertion, and none
of the checks fails. An insertion either reports a mismatch of shapes and leaves the arena as it is,
or appends one node that has the op, the wires and the type that is inferred for them. -/
theorem insertion_never_faults (g : Graph) (op : Op) (ws : List Wire) :
    Stepwise.emit op ws g = emit op ws g ∧
    (∀ fault h, Stepwise.emit op ws g ≠ .error (.internal fault) h) ∧
    ((∃ cause, emit op ws g = .error (.mismatch cause) g) ∨
      ∃ type, g.infer op ws = .ok type ∧ emit op ws g = .ok g.size (g.push op ws type)) := by
  have hcases := emit_cases g op ws
  refine ⟨Stepwise.emit_eq_emit g op ws, ?_, hcases⟩
  intro fault h
  rw [Stepwise.emit_eq_emit]
  obtain ⟨cause, hrun⟩ | ⟨type, -, hrun⟩ := hcases
  · rw [hrun]
    exact nofun
  · rw [hrun]
    exact nofun

/-- A matrix. -/
def oneMatrix : Graph := .ofParameters [⟨.f32, [2, 3]⟩]

/-- A sum along an axis that is listed twice, on a wire that is not there, and along the axis once. -/
theorem oneMatrix_sums :
    Stepwise.emit (.sum [1, 1]) [0] oneMatrix =
      .error (.mismatch (.axisList "Sum" [1, 1] 2)) oneMatrix ∧
    Stepwise.emit (.sum [1]) [4] oneMatrix = .error (.mismatch (.noNode "Sum" 4)) oneMatrix ∧
    Stepwise.emit (.sum [1]) [0] oneMatrix =
      .ok 1 (oneMatrix.push (.sum [1]) [0] ⟨.f32, [2]⟩) := by
  have htwice := (insertion_never_faults oneMatrix (.sum [1, 1]) [0]).1
  have habsent := (insertion_never_faults oneMatrix (.sum [1]) [4]).1
  have honce := (insertion_never_faults oneMatrix (.sum [1]) [0]).1
  rw [htwice, habsent, honce]
  exact ⟨rfl, rfl, rfl⟩

end GraphLowering
