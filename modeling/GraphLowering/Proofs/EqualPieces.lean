import Mathlib
import GraphLowering.Rule.Pieces
import GraphLowering.Proofs.AxisNumbers
import GraphLowering.Proofs.WindowRuns

/-!
# Equal pieces

A tensor is cut along an axis into as many pieces as its node has outputs. All pieces have the same
size, so the number of pieces has to divide the size of the axis. The pieces lie next to each other in
the order of the outputs, every element of the tensor is in one of them, and joining them along the
axis puts every element back where it was.

* `sliceOrigin`, `Graph.Takes` — which elements of its operand a slice takes.
* `concatPlace` — where a concatenation puts the elements of its operands.
* `pieceArena` — the arena with the first pieces, with `emit_piece` and `mapM_pieces` for one more
  piece and for all.
* `takes_piece_iff` — a piece takes the elements between its bounds.
* `infer_concat_pieces` — the pieces can be joined.
* `split_of_divides`, `split_of_not_divides` — what the rule makes of an axis.
* `split_tiles_axis` — when a split is lowered, what its pieces hold, and how they are joined.
-/

namespace GraphLowering

open Target

/-! ### What slices take and where concatenations put it -/

/-- The index of the operand from which a slice takes its element at index `k`. -/
def sliceOrigin (lower strides k : List Nat) : List Nat :=
  (List.range k.length).map fun d => lower.getD d 0 + k.getD d 0 * strides.getD d 0

/-- The node is a slice that takes the element at index `j` of its operand. -/
def Target.Node.Takes (v : Node) (j : List Nat) : Prop :=
  ∃ lower upper strides k, v.op = .slice lower upper strides ∧ v.type.shape.IsIndex k ∧
    sliceOrigin lower strides k = j

/-- The wire is a slice that takes the element at index `j` of its operand. -/
def Target.Graph.Takes (g : Graph) (w : Wire) (j : List Nat) : Prop :=
  ∃ v, g.nodes[w]? = some v ∧ v.Takes j

/-- The index at which a concatenation of tensors of the given shapes puts the element at index `k` of
operand `i`: along the axis it stands behind all operands before. -/
def concatPlace (axis : Nat) (shapes : List Shape) (i : Nat) (k : List Nat) : List Nat :=
  k.set axis (((shapes.take i).map fun shape => shape.getD axis 0).sum + k.getD axis 0)

/-! ### One piece -/

section Piece

variable {shape : Shape} {axis size length i : Nat} {j k : List Nat}

/-- An index with another place along an axis, in a shape with another size along it. -/
theorem isIndex_set (h : Shape.IsIndex shape j) {c : Nat} (hc : c < size) :
    Shape.IsIndex (shape.set axis size) (j.set axis c) := by
  induction h generalizing axis with
  | nil => exact .nil
  | cons hlt hrest ih =>
    cases axis with
    | zero => exact .cons hc hrest
    | succ axis => exact .cons hlt ih

theorem exists_place (h : Shape.IsIndex shape j) (hlength : shape[axis]? = some length) :
    ∃ c, j[axis]? = some c ∧ c < length := by
  have hrel := forall₂_getElem? h axis
  rw [hlength] at hrel
  cases hc : j[axis]? with
  | none =>
    rw [hc] at hrel
    cases hrel
  | some c =>
    rw [hc] at hrel
    cases hrel with
    | some hlt => exact ⟨c, rfl, hlt⟩

theorem set_getElem?_self {l : List Nat} {n : Nat} (h : l[axis]? = some n) : l.set axis n = l := by
  obtain ⟨hlt, rfl⟩ := List.getElem?_eq_some_iff.mp h
  exact List.set_getElem_self hlt

/-- The indices of a piece have a place below its size along the axis. -/
theorem place_of_piece (haxis : axis < shape.length)
    (hk : Shape.IsIndex (shape.set axis size) k) :
    k.length = shape.length ∧ k.getD axis 0 < size := by
  obtain ⟨c, hc, hlt⟩ := exists_place hk (List.getElem?_set_self haxis)
  refine ⟨by rw [hk.length_eq, List.length_set], ?_⟩
  rwa [List.getD_eq_getElem?_getD, hc, Option.getD_some]

/-- A piece takes its elements from behind its lower bound along the axis, and from where they are
along the others. -/
theorem sliceOrigin_piece (hk : k.length = shape.length) :
    sliceOrigin ((List.replicate shape.length 0).set axis (i * size))
      (List.replicate shape.length 1) k = k.set axis (i * size + k.getD axis 0) := by
  refine List.ext_getElem (by simp [sliceOrigin]) fun d hd hd' => ?_
  have hlt : d < k.length := by simpa using hd'
  have hlt' : d < shape.length := hk ▸ hlt
  by_cases haxis : axis = d
  · subst haxis
    simp [sliceOrigin, hlt, hlt']
  · simp [sliceOrigin, hlt, hlt', haxis]

/-- A slice that leaves no element out has the room between its bounds. -/
theorem sliceAxis_between {lower upper : List Nat} {d lo hi n : Nat} (hsize : shape[d]? = some n)
    (hlo : lower[d]? = some lo) (hhi : upper[d]? = some hi) (hle : lo ≤ hi) (hle' : hi ≤ n) :
    sliceAxis shape lower upper (List.replicate shape.length 1) d = .ok (hi - lo) := by
  have hd : d < shape.length := (List.getElem?_eq_some_iff.mp hsize).1
  have hstride : (List.replicate shape.length 1)[d]? = some 1 := by simp [hd]
  rw [sliceAxis, entryAt_eq_ok hsize, except_ok_bind, entryAt_eq_ok hlo, except_ok_bind,
    entryAt_eq_ok hhi, except_ok_bind, entryAt_eq_ok hstride, except_ok_bind, if_neg (by omega),
    minus_eq_ok hle, except_ok_bind, minus_eq_ok (by omega), except_ok_bind,
    quotient_eq_ok Nat.one_ne_zero, Nat.div_one, Nat.add_sub_cancel]

variable (hlength : shape[axis]? = some length)
include hlength

/-- The elements that a piece takes are those between its bounds. -/
theorem takes_piece_iff (hj : Shape.IsIndex shape j) {c : Nat} (hc : j[axis]? = some c) :
    (∃ k, Shape.IsIndex (shape.set axis size) k ∧
      sliceOrigin ((List.replicate shape.length 0).set axis (i * size))
        (List.replicate shape.length 1) k = j) ↔ i * size ≤ c ∧ c < (i + 1) * size := by
  have haxis : axis < shape.length := (List.getElem?_eq_some_iff.mp hlength).1
  rw [Nat.succ_mul]
  constructor
  · rintro ⟨k, hk, rfl⟩
    obtain ⟨hlen, hlt⟩ := place_of_piece haxis hk
    rw [sliceOrigin_piece hlen, List.getElem?_set_self (by omega), Option.some.injEq] at hc
    omega
  · rintro ⟨hlower, hupper⟩
    refine ⟨j.set axis (c - i * size), isIndex_set hj (by omega), ?_⟩
    have hlen : (j.set axis (c - i * size)).length = shape.length := by
      rw [List.length_set, hj.length_eq]
    have haxis' : axis < j.length := by rw [hj.length_eq]; exact haxis
    have hplace : (j.set axis (c - i * size)).getD axis 0 = c - i * size := by simp [haxis']
    rw [sliceOrigin_piece hlen, hplace, List.set_set, Nat.add_sub_cancel' hlower,
      set_getElem?_self hc]

/-- What a piece takes lies in the tensor. -/
theorem isIndex_of_piece (hupper : (i + 1) * size ≤ length)
    (hk : Shape.IsIndex (shape.set axis size) k) :
    Shape.IsIndex shape (sliceOrigin ((List.replicate shape.length 0).set axis (i * size))
      (List.replicate shape.length 1) k) := by
  have haxis : axis < shape.length := (List.getElem?_eq_some_iff.mp hlength).1
  obtain ⟨hlen, hlt⟩ := place_of_piece haxis hk
  rw [Nat.succ_mul] at hupper
  have hset : Shape.IsIndex ((shape.set axis size).set axis length)
      (k.set axis (i * size + k.getD axis 0)) := isIndex_set hk (by omega)
  rwa [List.set_set, set_getElem?_self hlength, ← sliceOrigin_piece hlen] at hset

/-- A concatenation of equal pieces puts every element back to where the piece has taken it. -/
theorem concatPlace_piece {pieces : Nat} (hi : i < pieces)
    (hk : Shape.IsIndex (shape.set axis size) k) :
    concatPlace axis (List.replicate pieces (shape.set axis size)) i k =
      sliceOrigin ((List.replicate shape.length 0).set axis (i * size))
        (List.replicate shape.length 1) k := by
  have haxis : axis < shape.length := (List.getElem?_eq_some_iff.mp hlength).1
  have hsize : (shape.set axis size).getD axis 0 = size := by simp [haxis]
  rw [sliceOrigin_piece (place_of_piece haxis hk).1, concatPlace, List.take_replicate,
    List.map_replicate, hsize, List.sum_replicate, Nat.min_eq_left hi.le, smul_eq_mul]

/-- The type of a piece. -/
theorem infer_piece (element : ElementType) (hupper : (i + 1) * size ≤ length) :
    (pieceOp shape axis size i).infer [⟨element, shape⟩] =
      .ok ⟨element, shape.set axis size⟩ := by
  have hsizes : (List.range shape.length).mapM
      (sliceAxis shape ((List.replicate shape.length 0).set axis (i * size))
        (shape.set axis ((i + 1) * size)) (List.replicate shape.length 1)) =
      .ok (shape.set axis size) := by
    have hset := getD_range (shape.set axis size)
    rw [List.length_set] at hset
    rw [except_mapM_eq_ok, ← hset, List.forall₂_map_right_iff, List.forall₂_same]
    intro d hd
    have hlt : d < shape.length := List.mem_range.mp hd
    by_cases heq : axis = d
    · -- Along the axis a piece has the room between its bounds.
      subst heq
      have hroom : (i + 1) * size - i * size = size := by rw [Nat.succ_mul, Nat.add_sub_cancel_left]
      have hlower : ((List.replicate shape.length 0).set axis (i * size))[axis]? = some (i * size) := by
        simp [hlt]
      have hbound : (shape.set axis ((i + 1) * size))[axis]? = some ((i + 1) * size) := by simp [hlt]
      rw [sliceAxis_between hlength hlower hbound (Nat.mul_le_mul_right size (Nat.le_succ i)) hupper,
        hroom]
      simp [hlt]
    · -- Along the others it has all of the tensor.
      have hlower : ((List.replicate shape.length 0).set axis (i * size))[d]? = some 0 := by
        simp [heq, hlt]
      have hbound : (shape.set axis ((i + 1) * size))[d]? = some shape[d] := by simp [heq, hlt]
      rw [sliceAxis_between (List.getElem?_eq_getElem hlt) hlower hbound (Nat.zero_le _) le_rfl]
      simp [heq, hlt]
  simp only [pieceOp, Op.infer, oneOperand, except_ok_bind]
  rw [if_neg (by simp), hsizes]
  rfl

end Piece

/-! ### All pieces -/

section Pieces

variable (g : Graph) (x : Wire) (type : TensorType) (axis size : Nat)

/-- The type of every piece. -/
def pieceType : TensorType := ⟨type.element, type.shape.set axis size⟩

/-- The arena with the first `n` pieces. -/
def pieceArena : Nat → Graph
  | 0 => g
  | n + 1 => (pieceArena n).push (pieceOp type.shape axis size n) [x] (pieceType type axis size)

@[simp] theorem size_pieceArena (n : Nat) :
    (pieceArena g x type axis size n).size = g.size + n := by
  induction n with
  | zero => rfl
  | succ n ih => rw [pieceArena, Graph.size_push, ih, Nat.add_assoc]

theorem pieceArena_mono {n m : Nat} (h : n ≤ m) :
    pieceArena g x type axis size n ≤ pieceArena g x type axis size m := by
  induction h with
  | refl => exact le_rfl
  | step _ ih => exact ih.trans (Graph.le_push _ _ _ _)

theorem node_pieceArena {n i : Nat} (hi : i < n) :
    (pieceArena g x type axis size n).nodes[g.size + i]? =
      some ⟨g.size + i, pieceOp type.shape axis size i, [x], pieceType type axis size⟩ := by
  refine pieceArena_mono g x type axis size (Nat.succ_le_of_lt hi) _ _ ?_
  rw [← size_pieceArena g x type axis size i]
  exact Graph.node_push_self _ _ _ _

variable {g x type axis size} {pieces length : Nat} (hx : g.type? x = some type)
  (hlength : type.shape[axis]? = some length) (hpieces : pieces * size ≤ length)
include hx hlength hpieces

/-- One more piece. -/
theorem emit_piece {n : Nat} (hn : n < pieces) :
    emit (pieceOp type.shape axis size n) [x] (pieceArena g x type axis size n) =
      .ok (g.size + n) (pieceArena g x type axis size (n + 1)) := by
  have hx' : (pieceArena g x type axis size n).type? x = some type :=
    Graph.type?_mono (pieceArena_mono g x type axis size (Nat.zero_le n)) hx
  have hupper : (n + 1) * size ≤ length := (Nat.mul_le_mul_right size hn).trans hpieces
  rw [emit_of_type hx' (infer_piece hlength type.element hupper), size_pieceArena]
  rfl

/-- The pieces are appended one after the other. -/
theorem mapM_pieces {n : Nat} (hn : n ≤ pieces) :
    (List.range n).mapM (fun i => emit (pieceOp type.shape axis size i) [x]) g =
      .ok ((List.range n).map (g.size + ·)) (pieceArena g x type axis size n) := by
  induction n with
  | zero => rfl
  | succ n ih =>
    have hlast : (List.mapM (fun i => emit (pieceOp type.shape axis size i) [x]) [n] :
        Emit (List Wire)) (pieceArena g x type axis size n) =
          .ok [g.size + n] (pieceArena g x type axis size (n + 1)) := by
      rw [List.mapM_cons, Step.bind_of_ok (emit_piece hx hlength hpieces hn)]
      rfl
    rw [List.range_succ, List.mapM_append, Step.bind_of_ok (ih (Nat.le_of_succ_le hn)),
      Step.bind_of_ok hlast, List.map_append]
    rfl

end Pieces

/-! ### Joining the pieces -/

theorem Target.Graph.types_of_same {g : Graph} {type : TensorType} {ws : List Wire}
    (h : ∀ w ∈ ws, g.type? w = some type) : g.types ws = .ok (List.replicate ws.length type) := by
  induction ws with
  | nil => rfl
  | cons w ws ih =>
    obtain ⟨hw, hrest⟩ := List.forall_mem_cons.mp h
    rw [Graph.types, hw, ih hrest]
    rfl

section Concat

variable {head : TensorType} {axis size : Nat} (hsize : head.shape[axis]? = some size)
include hsize

theorem concatSize_replicate (n : Nat) :
    concatSize head axis (List.replicate n head) = .ok (n * size) := by
  have hrun : ∃ total, concatSize head axis (List.replicate n head) = .ok total ∧
      total = (List.replicate n head).length * size := by
    refine foldlM_ok_of_step (fun done total => total = done.length * size) (Nat.zero_mul _).symm ?_
    intro done operand rest total hsplit htotal
    obtain rfl : operand = head := by
      have hmem : operand ∈ List.replicate n head := by rw [hsplit]; simp
      exact List.eq_of_mem_replicate hmem
    refine ⟨total + size, ?_, ?_⟩
    · rw [if_neg (by simp), entryAt_eq_ok hsize]
      rfl
    · rw [htotal, List.length_append, List.length_singleton, Nat.succ_mul]
  obtain ⟨total, hrun, rfl⟩ := hrun
  rw [hrun, List.length_replicate]

/-- Tensors of one type are joined to a tensor that is as long as all of them. -/
theorem infer_concat_replicate {n : Nat} (hn : 0 < n) :
    (Op.concat axis).infer (List.replicate n head) =
      .ok ⟨head.element, head.shape.set axis (n * size)⟩ := by
  have haxis : axis < head.shape.length := (List.getElem?_eq_some_iff.mp hsize).1
  obtain ⟨m, rfl⟩ := Nat.exists_eq_add_of_lt hn
  have hconcat := concatSize_replicate hsize (0 + m + 1)
  rw [List.replicate_succ] at hconcat ⊢
  rw [Op.infer, inferConcat, if_neg (by omega), hconcat]
  rfl

end Concat

/-- In every later arena the pieces can be joined, which gives back the type of the tensor. -/
theorem emit_concat_pieces {g h : Graph} {x : Wire} {type : TensorType} {axis size pieces : Nat}
    (hlength : type.shape[axis]? = some (pieces * size)) (hpieces : 0 < pieces)
    (hle : pieceArena g x type axis size pieces ≤ h) :
    emit (.concat axis) ((List.range pieces).map (g.size + ·)) h =
      .ok h.size (h.push (.concat axis) ((List.range pieces).map (g.size + ·)) type) := by
  have haxis : axis < type.shape.length := (List.getElem?_eq_some_iff.mp hlength).1
  have htypes : ∀ w ∈ (List.range pieces).map (g.size + ·),
      h.type? w = some (pieceType type axis size) := by
    intro w hw
    obtain ⟨i, hi, rfl⟩ := List.mem_map.mp hw
    have hnode := hle _ _ (node_pieceArena g x type axis size (List.mem_range.mp hi))
    rw [Graph.type?, hnode]
    rfl
  have hsize : (pieceType type axis size).shape[axis]? = some size :=
    List.getElem?_set_self haxis
  refine emit_of_infer ?_
  rw [Graph.infer_of_types (Graph.types_of_same htypes), List.length_map, List.length_range,
    infer_concat_replicate hsize hpieces, pieceType, List.set_set, set_getElem?_self hlength]

/-! ### The elements of the pieces -/

section Elements

variable {g h : Graph} {x : Wire} {type : TensorType} {axis size pieces : Nat}
  (hlength : type.shape[axis]? = some (pieces * size))
  (hle : pieceArena g x type axis size pieces ≤ h)
include hlength hle

/-- Piece `i` takes the elements of the tensor from `i * size` up to `(i + 1) * size` along the
axis. -/
theorem takes_pieceArena_iff {i : Nat} (hi : i < pieces) {j : List Nat} :
    h.Takes (g.size + i) j ↔
      type.shape.IsIndex j ∧ ∃ c, j[axis]? = some c ∧ i * size ≤ c ∧ c < (i + 1) * size := by
  have hnode := hle _ _ (node_pieceArena g x type axis size hi)
  have htakes : h.Takes (g.size + i) j ↔ ∃ k, Shape.IsIndex (type.shape.set axis size) k ∧
      sliceOrigin ((List.replicate type.shape.length 0).set axis (i * size))
        (List.replicate type.shape.length 1) k = j := by
    constructor
    · rintro ⟨v, hv, lower, upper, strides, k, hop, hk, hj⟩
      rw [hnode] at hv
      obtain rfl := Option.some.inj hv
      obtain ⟨rfl, -, rfl⟩ := Op.slice.inj hop
      exact ⟨k, hk, hj⟩
    · rintro ⟨k, hk, hj⟩
      exact ⟨_, hnode, _, _, _, k, rfl, hk, hj⟩
  rw [htakes]
  constructor
  · rintro ⟨k, hk, rfl⟩
    have hindex := isIndex_of_piece hlength (Nat.mul_le_mul_right size hi) hk
    obtain ⟨c, hc, -⟩ := exists_place hindex hlength
    exact ⟨hindex, c, hc, (takes_piece_iff hlength hindex hc).mp ⟨k, hk, rfl⟩⟩
  · rintro ⟨hj, c, hc, hbounds⟩
    exact (takes_piece_iff hlength hj hc).mpr hbounds

/-- Every element of the tensor is in one piece and in no other. -/
theorem existsUnique_piece {j : List Nat} (hj : type.shape.IsIndex j) :
    ∃! i, i < pieces ∧ h.Takes (g.size + i) j := by
  obtain ⟨c, hc, hlt⟩ := exists_place hj hlength
  have hsize : 0 < size := by
    by_contra hzero
    rw [Nat.eq_zero_of_not_pos hzero] at hlt
    omega
  have hpiece : c / size < pieces := (Nat.div_lt_iff_lt_mul hsize).mpr hlt
  have hupper : c < (c / size + 1) * size := by
    have hdivision := Nat.div_add_mod' c size
    have hrest := Nat.mod_lt c hsize
    rw [Nat.succ_mul]
    omega
  refine ⟨c / size, ⟨hpiece, ?_⟩, ?_⟩
  · rw [takes_pieceArena_iff hlength hle hpiece]
    exact ⟨hj, c, hc, Nat.div_mul_le_self c size, hupper⟩
  · rintro i ⟨hi, htakes⟩
    obtain ⟨-, c', hc', hbounds⟩ := (takes_pieceArena_iff hlength hle hi).mp htakes
    obtain rfl := Option.some.inj (hc.symm.trans hc')
    exact (Nat.div_eq_of_lt_le hbounds.1 hbounds.2).symm

end Elements

/-! ### The rule -/

/-- A split with two data inputs declares as many outputs as it asks for pieces, finds its operand in
the arena and reads one number on its first input slot. -/
structure ReadsSplit (ctx : Context) (ws : List Wire) (g : Graph) (x : Wire) (type : TensorType)
    (a : Int) : Prop where
  inputs : ctx.node.inputs = 2
  declared : ctx.node.int "num_split" = .ok (ctx.node.outputs : Int)
  pieces : 0 < ctx.node.outputs
  operand : ws[0]? = some x
  typed : g.type? x = some type
  axisOf : ctx.staticInts 0 = .ok [a]

/-- The last part of the rule: with its axis, the pieces are appended. -/
def splitAlong (ctx : Context) (x : Wire) (shape : Shape) (axis : Except Error Nat) :
    Emit Outputs := do
  let axis ← axis
  let length ← entryAt shape axis
  if (← remainder length ctx.node.outputs) ≠ 0 then
    throw (ctx.refuse (.notDivisible axis shape ctx.node.outputs))
  let size ← quotient length ctx.node.outputs
  let slices ← (List.range ctx.node.outputs).mapM fun i => emit (pieceOp shape axis size i) [x]
  return slices.map some

section Rule

variable {ctx : Context} {ws : List Wire} {g : Graph} {x : Wire} {type : TensorType} {a : Int}
  (hreads : ReadsSplit ctx ws g x type a)
include hreads

theorem split_eq :
    Rule.split ctx ws g = splitAlong ctx x type.shape (ctx.axis a type.shape.length) g := by
  have haxis : axisValue ctx 0 = .ok a := by
    rw [axisValue, hreads.axisOf]
    rfl
  have hpieces : ¬ ((ctx.node.outputs : Int) ≤ 0 ∨ (ctx.node.outputs : Int) ≠ ctx.node.outputs) := by
    have := hreads.pieces
    omega
  rw [Rule.split, Context.needInputs_run hreads.inputs]
  dsimp only
  rw [Step.lift_bind_of_ok hreads.declared, if_neg hpieces,
    Step.lift_bind_of_ok (entryAt_eq_ok hreads.operand),
    Step.bind_of_ok (shapeOf_of_type? hreads.typed), Step.lift_bind_of_ok haxis]
  rfl

/-- The arena after a split. -/
theorem split_of_divides {size : Nat} (hnames : NamesAxis type.shape.length a)
    (hlength : type.shape[axisAt type.shape.length a]? = some (ctx.node.outputs * size)) :
    Rule.split ctx ws g =
      .ok ((List.range ctx.node.outputs).map fun i => some (g.size + i))
        (pieceArena g x type (axisAt type.shape.length a) size ctx.node.outputs) := by
  have hne : ctx.node.outputs ≠ 0 := hreads.pieces.ne'
  have hrest : remainder (ctx.node.outputs * size) ctx.node.outputs = .ok 0 := by
    rw [remainder_eq_ok hne, Nat.mul_mod_right]
  have hsize : quotient (ctx.node.outputs * size) ctx.node.outputs = .ok size := by
    rw [quotient_eq_ok hne, Nat.mul_div_cancel_left size hreads.pieces]
  rw [split_eq hreads, splitAlong, Step.lift_bind_of_ok (ctx.axis_of_names hnames),
    Step.lift_bind_of_ok (entryAt_eq_ok hlength), Step.lift_bind_of_ok hrest,
    if_neg (not_not.mpr rfl)]
  dsimp only
  rw [Step.lift_bind_of_ok hsize, Step.bind_of_ok (mapM_pieces hreads.typed hlength le_rfl le_rfl)]
  show EStateM.Result.ok (((List.range ctx.node.outputs).map (g.size + ·)).map some) _ = _
  rw [List.map_map]
  rfl

/-- A number that names no axis is refused, and so is an axis that cannot be cut evenly. -/
theorem split_of_not_divides (h : ¬ (NamesAxis type.shape.length a ∧
      ctx.node.outputs ∣ type.shape.getD (axisAt type.shape.length a) 0)) :
    ∃ e, Rule.split ctx ws g = .error e g := by
  rw [split_eq hreads]
  by_cases hnames : NamesAxis type.shape.length a
  · have hlt := axisAt_lt hnames
    have hlength : type.shape[axisAt type.shape.length a]? =
        some (type.shape.getD (axisAt type.shape.length a) 0) := by
      rw [List.getElem?_eq_getElem hlt, List.getD_eq_getElem _ _ hlt]
    have hrest : type.shape.getD (axisAt type.shape.length a) 0 % ctx.node.outputs ≠ 0 :=
      fun hzero => h ⟨hnames, Nat.dvd_of_mod_eq_zero hzero⟩
    rw [splitAlong, Step.lift_bind_of_ok (ctx.axis_of_names hnames),
      Step.lift_bind_of_ok (entryAt_eq_ok hlength),
      Step.lift_bind_of_ok (remainder_eq_ok hreads.pieces.ne'), if_pos hrest]
    exact ⟨_, rfl⟩
  · rw [ctx.axis_of_not_names hnames]
    exact ⟨_, rfl⟩

end Rule

/-- **A split tiles its axis, and a concatenation undoes it.** A split that asks for as many pieces as
it has outputs, finds its operand and reads a number is lowered just if the number names an axis and
the pieces divide its size; otherwise the arena stays as it was. It fills every output with a slice,
all of one shape. Piece `i` takes just the elements of the operand that lie from `i * size` up to
`(i + 1) * size` along the axis, so the pieces follow each other without a gap, and every element is in
one of them and in no other. In every later arena the pieces can be joined along the axis in the order
of the outputs; this gives a tensor of the type of the operand, in which every element stands where
its piece has taken it. -/
theorem split_tiles_axis {ctx : Context} {ws : List Wire} {g : Graph} {x : Wire} {type : TensorType}
    {a : Int} (hreads : ReadsSplit ctx ws g x type a) :
    ((∃ outputs h, Rule.split ctx ws g = .ok outputs h) ↔
      NamesAxis type.shape.length a ∧
        ctx.node.outputs ∣ type.shape.getD (axisAt type.shape.length a) 0) ∧
    (∀ e h, Rule.split ctx ws g = .error e h → h = g) ∧
    ∀ outputs h, Rule.split ctx ws g = .ok outputs h →
      ∃ axis size, axis = axisAt type.shape.length a ∧
        type.shape[axis]? = some (ctx.node.outputs * size) ∧
        outputs = (List.range ctx.node.outputs).map (fun i => some (g.size + i)) ∧
        g ≤ h ∧ h.size = g.size + ctx.node.outputs ∧
        (∀ i < ctx.node.outputs, h.nodes[g.size + i]? = some ⟨g.size + i,
          .slice ((List.replicate type.shape.length 0).set axis (i * size))
            (type.shape.set axis ((i + 1) * size)) (List.replicate type.shape.length 1), [x],
          ⟨type.element, type.shape.set axis size⟩⟩) ∧
        (∀ i < ctx.node.outputs, ∀ j, h.Takes (g.size + i) j ↔
          type.shape.IsIndex j ∧ ∃ c, j[axis]? = some c ∧ i * size ≤ c ∧ c < (i + 1) * size) ∧
        (∀ j, type.shape.IsIndex j → ∃! i, i < ctx.node.outputs ∧ h.Takes (g.size + i) j) ∧
        (∀ h', h ≤ h' → emit (.concat axis) ((List.range ctx.node.outputs).map (g.size + ·)) h' =
          .ok h'.size
            (h'.push (.concat axis) ((List.range ctx.node.outputs).map (g.size + ·)) type)) ∧
        ∀ i < ctx.node.outputs, ∀ k, Shape.IsIndex (type.shape.set axis size) k →
          concatPlace axis (List.replicate ctx.node.outputs (type.shape.set axis size)) i k =
            sliceOrigin ((List.replicate type.shape.length 0).set axis (i * size))
              (List.replicate type.shape.length 1) k := by
  by_cases hdivides : NamesAxis type.shape.length a ∧
      ctx.node.outputs ∣ type.shape.getD (axisAt type.shape.length a) 0
  · obtain ⟨hnames, size, hsize⟩ := hdivides
    have hlength : type.shape[axisAt type.shape.length a]? = some (ctx.node.outputs * size) := by
      rw [← hsize, List.getElem?_eq_getElem (axisAt_lt hnames),
        List.getD_eq_getElem _ _ (axisAt_lt hnames)]
    rw [split_of_divides hreads hnames hlength]
    refine ⟨iff_of_true ⟨_, _, rfl⟩ ⟨hnames, size, hsize⟩, nofun, ?_⟩
    intro outputs h hrun
    obtain ⟨rfl, rfl⟩ := EStateM.Result.ok.inj hrun
    exact ⟨_, size, rfl, hlength, rfl, pieceArena_mono _ _ _ _ _ (Nat.zero_le _),
      size_pieceArena _ _ _ _ _ _, fun i hi => node_pieceArena _ _ _ _ _ hi,
      fun i hi j => takes_pieceArena_iff hlength le_rfl hi,
      fun j hj => existsUnique_piece hlength le_rfl hj,
      fun h' hle => emit_concat_pieces hlength hreads.pieces hle,
      fun i hi k hk => concatPlace_piece hlength hi hk⟩
  · obtain ⟨e, hrun⟩ := split_of_not_divides hreads hdivides
    rw [hrun]
    refine ⟨iff_of_false nofun hdivides, ?_, nofun⟩
    intro e' h herror
    exact (EStateM.Result.error.inj herror).2.symm

/-- A split into equal pieces along the axis that a constant names. -/
def splitInto (pieces : Nat) (a : Int) : Context :=
  .fedByConstant { name := "s", op := "Split", outputs := pieces,
                   attrs := NameTable.empty.insert "num_split" (.int pieces) } 0 [a]

/-- An arena that holds a tensor with six columns. -/
def sixColumns : Graph := .ofParameters [⟨.f32, [2, 6]⟩]

/-- Six columns are cut into three pieces of two, of which the last holds the last column, and the
pieces are joined again; they cannot be cut into four. -/
theorem sixColumns_split_and_joined :
    (∃ outputs h, Rule.split (splitInto 3 (-1)) [0] sixColumns = .ok outputs h ∧
      h.type? 3 = some ⟨.f32, [2, 2]⟩ ∧ h.Takes 3 [1, 5] ∧ ¬ h.Takes 2 [1, 5] ∧
      ∃ h', emit (.concat 1) [1, 2, 3] h = .ok 4 h' ∧ h'.type? 4 = some ⟨.f32, [2, 6]⟩) ∧
    ¬ ∃ outputs h, Rule.split (splitInto 4 (-1)) [0] sixColumns = .ok outputs h := by
  have hreads : ∀ pieces, 0 < pieces →
      ReadsSplit (splitInto pieces (-1)) [0] sixColumns 0 ⟨.f32, [2, 6]⟩ (-1) :=
    fun pieces hpieces => ⟨rfl, rfl, hpieces, rfl, rfl, rfl⟩
  constructor
  · obtain ⟨haccepts, -, hpieces⟩ := split_tiles_axis (hreads 3 (by decide))
    obtain ⟨outputs, h, hrun⟩ := haccepts.mpr ⟨by decide, by decide⟩
    obtain ⟨axis, size, rfl, hlength, -, -, hsize, hnodes, htakes, -, hconcat, -⟩ :=
      hpieces outputs h hrun
    obtain rfl : size = 2 := by
      have hsix := Option.some.inj hlength
      change 6 = 3 * size at hsix
      omega
    have hlast := hnodes 2 (by decide)
    change h.nodes[3]? = _ at hlast
    have hfour : h.size = 4 := hsize
    have hjoined := hconcat h le_rfl
    rw [hfour] at hjoined
    refine ⟨outputs, h, hrun, ?_, ?_, ?_, _, hjoined, ?_⟩
    · rw [Graph.type?, hlast]
      rfl
    · exact (htakes 2 (by decide) [1, 5]).mpr ⟨by decide, 5, rfl, by decide, by decide⟩
    · intro htakes'
      obtain ⟨-, c, hc, -, hlt⟩ := (htakes 1 (by decide) [1, 5]).mp htakes'
      obtain rfl := Option.some.inj hc
      omega
    · rw [← hfour]
      exact Graph.type?_push_self _ _ _ _
  · rw [(split_tiles_axis (hreads 4 (by decide))).1]
    decide

end GraphLowering
