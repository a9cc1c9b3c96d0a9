import Mathlib
import GraphLowering.Proofs.Simulation

/-!
# Where elements come from

Some target ops compute nothing: a broadcast repeats the elements of its operand, and a reshape lays
them out under other axes. Reading a tensor through such ops leads back to an element of an earlier
tensor. The elements of all other tensors are taken as given, so what is said here holds whatever the
other ops compute.

* `Shape.IsIndex` — the indices of a tensor.
* `Shape.offset`, `Shape.indexAt` — row-major order: the place of an index, and the index at a place.
* `permuted`, `unpermuted` — a shape under other axes, and an index taken back to the axes before.
* `Op.origin?` — the index of the operand from which a broadcast or a reshape takes an element.
* `Graph.element` — the element of a tensor in an arena.
* `Target.emit_of_type`, `Target.infer_broadcast`, `Target.infer_reshape` — what appending an op on
  one wire does, and the types of the ops that lay elements out.
* `Target.infer_binary_same`, `Target.emit_binary_of_ne` — binary ops on tensors of one type, and of
  two.
-/

namespace GraphLowering

open Target

/-! ### Indices -/

namespace Shape

/-- An index lists a place along each axis, below its size. -/
def IsIndex (shape : Shape) (j : List Nat) : Prop := List.Forall₂ (· < ·) j shape

instance (shape : Shape) (j : List Nat) : Decidable (shape.IsIndex j) :=
  inferInstanceAs (Decidable (List.Forall₂ (· < ·) j shape))

/-- The place of an index in row-major order, in which the last axis runs fastest. -/
def offset : Shape → List Nat → Nat
  | _ :: shape, i :: j => i * elements shape + offset shape j
  | _, _ => 0

/-- The index at a place in row-major order. -/
def indexAt : Shape → Nat → List Nat
  | [], _ => []
  | _ :: shape, place => place / elements shape :: indexAt shape (place % elements shape)

variable {shape : Shape} {j : List Nat}

theorem offset_lt (h : shape.IsIndex j) : shape.offset j < shape.elements := by
  induction h with
  | nil => exact Nat.one_pos
  | @cons i size j shape hi _ ih =>
    rw [offset, elements_cons]
    calc i * elements shape + offset shape j < i * elements shape + elements shape := by omega
      _ = (i + 1) * elements shape := by ring
      _ ≤ size * elements shape := Nat.mul_le_mul_right _ hi

theorem indexAt_offset (h : shape.IsIndex j) : shape.indexAt (shape.offset j) = j := by
  induction h with
  | nil => rfl
  | @cons i size j shape _ hj ih =>
    have hlt : offset shape j < elements shape := offset_lt hj
    have hpos : 0 < elements shape := by omega
    have hdiv : (i * elements shape + offset shape j) / elements shape = i := by
      rw [Nat.mul_comm, Nat.mul_add_div hpos, Nat.div_eq_of_lt hlt, Nat.add_zero]
    have hmod : (i * elements shape + offset shape j) % elements shape = offset shape j := by
      rw [Nat.mul_comm, Nat.mul_add_mod, Nat.mod_eq_of_lt hlt]
    rw [offset, indexAt, hdiv, hmod, ih]

end Shape

/-! ### Ops that lay elements out -/

/-- A shape with its axes permuted: axis `d` is axis `order[d]` of the shape before. -/
def permuted (order : List Nat) (shape : Shape) : Shape := order.map fun axis => shape.getD axis 0

/-- The index before the axes were permuted: its entry `order[d]` is entry `d` of the index. -/
def unpermuted (order j : List Nat) : List Nat :=
  (List.range order.length).map fun axis => j.getD (order.idxOf axis) 0

theorem getD_range (shape : Shape) :
    (List.range shape.length).map (fun axis => shape.getD axis 0) = shape := by
  refine List.ext_getElem (by simp) fun i _ hi => ?_
  rw [List.getElem_map, List.getElem_range, List.getD_eq_getElem _ _ hi]

theorem permuted_range (shape : Shape) : permuted (List.range shape.length) shape = shape :=
  getD_range shape

theorem unpermuted_range (j : List Nat) : unpermuted (List.range j.length) j = j := by
  have hplace : ∀ axis ∈ List.range j.length,
      j.getD ((List.range j.length).idxOf axis) 0 = j.getD axis 0 := by
    intro axis haxis
    have hlt : (List.range j.length).idxOf axis < (List.range j.length).length :=
      List.idxOf_lt_length_of_mem haxis
    have hget := List.getElem_idxOf hlt
    rw [List.getElem_range] at hget
    rw [hget]
  rw [unpermuted, List.length_range, List.map_congr_left hplace, getD_range]

/-- The index of the operand, of the given shape, from which an op takes the element at index `j` of
its result. A broadcast repeats its operand along the listed axes of the result; a reshape permutes
the axes and reads the elements in row-major order as another shape. No other op only lays elements
out. -/
def Target.Op.origin? (op : Op) (shape : Shape) (j : List Nat) : Option (List Nat) :=
  match op with
  | .broadcast _ axes => some (sizesOff axes j)
  | .reshape order target =>
    some (unpermuted order ((permuted order shape).indexAt (target.offset j)))
  | _ => none

/-- Elements laid out under the axes in their order stay in row-major order. -/
theorem Target.Op.origin?_reshape_range (shape target : Shape) {j k : List Nat}
    (hk : shape.IsIndex k) (hplace : target.offset j = shape.offset k) :
    (Op.reshape (List.range shape.length) target).origin? shape j = some k := by
  have hlength : shape.length = k.length := hk.length_eq.symm
  rw [Op.origin?, permuted_range, hplace, Shape.indexAt_offset hk, hlength, unpermuted_range]

/-- Where a reshape only permutes the axes, so do its indices. -/
theorem Target.Op.origin?_reshape_permuted (order : List Nat) (shape : Shape) {j : List Nat}
    (hj : (permuted order shape).IsIndex j) :
    (Op.reshape order (permuted order shape)).origin? shape j = some (unpermuted order j) := by
  rw [Op.origin?, Shape.indexAt_offset hj]

/-! ### The elements of an arena -/

namespace Target.Graph

/-- The wire and the index from which a node takes an element of its result, if the node only lays
out the elements of one wire. -/
def origin? (g : Graph) (w : Wire) (j : List Nat) : Option (Wire × List Nat) :=
  match g.nodes[w]? with
  | some ⟨_, op, [y], _⟩ =>
    (g.type? y).bind fun type => (op.origin? type.shape j).map fun k => (y, k)
  | _ => none

/-- The element at index `j` of the tensor on a wire. Where a node lays out the elements of an
earlier wire it is one of these; all other elements are as given. -/
def element {α : Type} (g : Graph) (given : Wire → List Nat → α) (w : Wire) (j : List Nat) : α :=
  match g.origin? w j with
  | some (y, k) => if y < w then g.element given y k else given w j
  | none => given w j
termination_by w

variable {α : Type} {g h : Graph} {given : Wire → List Nat → α} {w x : Wire} {op : Op}
  {type : TensorType} {j k : List Nat}

theorem element_of_origin? (ho : g.origin? w j = some (x, k)) (hlt : x < w) :
    g.element given w j = g.element given x k := by
  rw [element, ho]
  exact if_pos hlt

theorem lt_size_of_type? (hx : g.type? x = some type) : x < g.size := by
  obtain ⟨v, hv, -⟩ := Option.map_eq_some_iff.mp hx
  exact (Array.getElem?_eq_some_iff.mp hv).1

/-- An op that has been appended on one wire and only lays elements out, read in any later arena. -/
theorem element_of_pushed {result : TensorType} (hx : g.type? x = some type)
    (hle : g.push op [x] result ≤ h) (ho : op.origin? type.shape j = some k) :
    h.element given g.size j = h.element given x k := by
  have hnode := hle _ _ (g.node_push_self op [x] result)
  have htype := type?_mono ((g.le_push op [x] result).trans hle) hx
  refine element_of_origin? ?_ (lt_size_of_type? hx)
  rw [origin?, hnode]
  simp [htype, ho]

end Target.Graph

/-! ### Steps on one wire -/

namespace Target

variable {g : Graph} {x : Wire} {type result : TensorType} {op : Op}

theorem Graph.types_one (hx : g.type? x = some type) : g.types [x] = .ok [type] := by
  rw [Graph.types, hx]
  rfl

theorem Graph.types_two {y : Wire} {type' : TensorType} (hx : g.type? x = some type)
    (hy : g.type? y = some type') : g.types [x, y] = .ok [type, type'] := by
  rw [Graph.types, hx, Graph.types_one hy]
  rfl

theorem typeOf_of_type? (hx : g.type? x = some type) : typeOf x g = .ok type g := by
  rw [typeOf, Step.bind_of_ok (Step.get_apply g), hx]
  rfl

theorem shapeOf_of_type? (hx : g.type? x = some type) : shapeOf x g = .ok type.shape g := by
  rw [shapeOf, Step.bind_of_ok (typeOf_of_type? hx)]
  rfl

/-- A wire whose shape can be asked for is in the arena. -/
theorem exists_type?_of_shapeOf {shape : Shape} {h : Graph} (hrun : shapeOf x g = .ok shape h) :
    ∃ type, g.type? x = some type ∧ shape = type.shape ∧ h = g := by
  cases hx : g.type? x with
  | some type =>
    rw [shapeOf_of_type? hx] at hrun
    cases hrun
    exact ⟨type, rfl, rfl, rfl⟩
  | none =>
    rw [shapeOf, typeOf, bind_assoc, Step.bind_of_ok (Step.get_apply g), hx] at hrun
    cases hrun

theorem emit_of_infer {ws : List Wire} (h : g.infer op ws = .ok type) :
    emit op ws g = .ok g.size (g.push op ws type) := by
  rw [emit_eq, h]

/-- An op that fits its operands extends the arena by a wire of the type that is inferred. -/
theorem exists_emit {ws : List Wire} (hinfer : g.infer op ws = .ok type) :
    ∃ w h, emit op ws g = .ok w h ∧ g ≤ h ∧ h.type? w = some type :=
  ⟨g.size, g.push op ws type, emit_of_infer hinfer, g.le_push op ws type,
    g.type?_push_self op ws type⟩

theorem exists_infer_of_emit {ws : List Wire} {w : Wire} {h : Graph}
    (hrun : emit op ws g = .ok w h) : ∃ type, g.infer op ws = .ok type := by
  rw [emit_eq] at hrun
  cases hinfer : g.infer op ws with
  | error e =>
    rw [hinfer] at hrun
    cases hrun
  | ok type => exact ⟨type, rfl⟩

/-- An op on one wire is appended with the type that its operand gives it. -/
theorem emit_of_type (hx : g.type? x = some type) (hop : op.infer [type] = .ok result) :
    emit op [x] g = .ok g.size (g.push op [x] result) :=
  emit_of_infer (by rw [Graph.infer_of_types (Graph.types_one hx), hop])

theorem infer_broadcast {shape : Shape} {axes : List Nat}
    (haxes : axes.Nodup ∧ axes.all (· < shape.length)) (hsizes : sizesOff axes shape = type.shape) :
    (Op.broadcast shape axes).infer [type] = .ok ⟨type.element, shape⟩ := by
  simp only [Op.infer, oneOperand, except_ok_bind, checkAxes]
  rw [if_pos haxes, except_ok_bind, if_neg (not_not.mpr hsizes)]
  rfl

theorem infer_reshape {order : List Nat} {shape : Shape}
    (horder : isPermutation order type.shape.length = true)
    (helements : type.shape.elements = shape.elements) :
    (Op.reshape order shape).infer [type] = .ok ⟨type.element, shape⟩ := by
  simp only [Op.infer, oneOperand, except_ok_bind]
  rw [if_neg (not_not.mpr horder), if_neg (not_not.mpr helements)]
  rfl

/-! ### Steps on two wires -/

theorem infer_binary (kind : BinaryOp) (type : TensorType) :
    (Op.binary kind).infer [type, type] = .ok type := by
  simp only [Op.infer, twoOperands, except_ok_bind, if_true]
  rfl

theorem infer_binary_of_ne (kind : BinaryOp) {a b : TensorType} (hne : a ≠ b) :
    (Op.binary kind).infer [a, b] =
      .error (.mismatch (.operandsDiffer (Op.binary kind).name a.element a.shape b.element b.shape)) := by
  simp only [Op.infer, twoOperands, except_ok_bind]
  rw [if_neg hne]
  rfl

variable {y : Wire}

/-- A binary op on two tensors of one type gives a tensor of that type. -/
theorem infer_binary_same (kind : BinaryOp) (hx : g.type? x = some type)
    (hy : g.type? y = some type) : g.infer (.binary kind) [x, y] = .ok type := by
  rw [Graph.infer_of_types (Graph.types_two hx hy), infer_binary]

/-- A binary op on tensors of two types is refused, and the arena stays as it is. -/
theorem emit_binary_of_ne (kind : BinaryOp) {a b : TensorType} (hx : g.type? x = some a)
    (hy : g.type? y = some b) (hne : a ≠ b) :
    emit (.binary kind) [x, y] g = .error
      (.mismatch (.operandsDiffer (Op.binary kind).name a.element a.shape b.element b.shape)) g := by
  rw [emit_eq, Graph.infer_of_types (Graph.types_two hx hy), infer_binary_of_ne kind hne]

end Target

end GraphLowering
