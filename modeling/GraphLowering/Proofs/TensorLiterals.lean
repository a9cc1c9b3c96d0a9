import Mathlib
import GraphLowering.Proofs.Loading
import GraphLowering.Proofs.StaticReads

/-!
# Tensors that a document writes

A tensor of a document is a type, a shape and a list of values, which may be as short as one. Here
it is said which of them are tensors and which tensor they are, value by value and without the
arrays in which the elements are collected, and that every tensor of a loaded graph and every
constant that is lowered from it comes from such a literal.

* `Scalar`, `Elements.scalars` — the elements of a tensor one by one.
* `Json.Value.Integral`, `Converts` — what a value of a literal stands for in a type.
* `TensorDef.length_expanded`, `TensorDef.elements_spec`, `TensorDef.tensor_eq_ok` — one literal.
* `Document.exists_literal_of_tensor` — the tensor attributes of the graph of a document.
* `tensor_literals_load` — which literals are loaded, and as what.
-/

namespace GraphLowering

open Json Source

/-! ### Elements one by one -/

theorem Shape.elements_eq_prod (shape : Shape) : shape.elements = shape.prod := by
  rw [Shape.elements, List.prod_eq_foldr]

/-- One element of a tensor. -/
inductive Scalar where
  | f32 (x : Binary32)
  | f64 (x : Binary64)
  | i8 (x : Int8)
  | i32 (x : Int32)
  | i64 (x : Int64)
  | u8 (x : UInt8)
  | bool (x : Bool)

/-- The elements of a tensor in row-major order, each by itself. -/
def Elements.scalars : Elements → List Scalar
  | .f32 xs => xs.toList.map .f32
  | .f64 xs => xs.toList.map .f64
  | .i8 xs => xs.toList.map .i8
  | .i32 xs => xs.toList.map .i32
  | .i64 xs => xs.toList.map .i64
  | .u8 xs => xs.toList.map .u8
  | .bool xs => xs.toList.map .bool

theorem Elements.length_scalars (data : Elements) : data.scalars.length = data.size := by
  cases data <;> simp [Elements.scalars, Elements.size]

/-! ### What a value stands for -/

/-- The value is an integer in the range of a signed 64-bit word. -/
def Json.Value.Integral (v : Value) (z : Int) : Prop :=
  (∃ range, v = .number (.integer z range)) ∧ -2 ^ 63 ≤ z ∧ z < 2 ^ 63

/-- What a value of a literal stands for in a type. A number stands for the nearest 64-bit word, and
for this word rounded to 32 bits. An integer stands for the element of an integer type that is
congruent to it modulo the number of elements of the type, which for 64 bits is the integer
itself. -/
inductive Converts : DataType → Value → Scalar → Prop where
  | float (n : Number) : Converts .float (.number n) (.f32 (n.double.convert .single))
  | double (n : Number) : Converts .double (.number n) (.f64 n.double)
  | int8 {v : Value} {z : Int} {x : Int8} (hz : v.Integral z) (hx : x.toInt ≡ z [ZMOD 2 ^ 8]) :
    Converts .int8 v (.i8 x)
  | int32 {v : Value} {z : Int} {x : Int32} (hz : v.Integral z)
      (hx : x.toInt ≡ z [ZMOD 2 ^ 32]) :
    Converts .int32 v (.i32 x)
  | int64 {v : Value} {z : Int} {x : Int64} (hz : v.Integral z) (hx : x.toInt = z) :
    Converts .int64 v (.i64 x)
  | uint8 {v : Value} {z : Int} {x : UInt8} (hz : v.Integral z)
      (hx : (x.toNat : Int) ≡ z [ZMOD 2 ^ 8]) :
    Converts .uint8 v (.u8 x)
  | bool (b : Bool) : Converts .bool (.bool b) (.bool b)

theorem int8_ofInt_eq_iff {z : Int} {x : Int8} : Int8.ofInt z = x ↔ x.toInt ≡ z [ZMOD 2 ^ 8] := by
  rw [Int8.ofInt_eq_iff_bmod_eq_toInt, Int.bmod_eq_iff (by decide), Int.ModEq]
  have hlt := x.toInt_lt
  have hle := x.le_toInt
  omega

theorem int32_ofInt_eq_iff {z : Int} {x : Int32} :
    Int32.ofInt z = x ↔ x.toInt ≡ z [ZMOD 2 ^ 32] := by
  rw [Int32.ofInt_eq_iff_bmod_eq_toInt, Int.bmod_eq_iff (by decide), Int.ModEq]
  have hlt := x.toInt_lt
  have hle := x.le_toInt
  omega

theorem int64_ofInt_eq_iff {z : Int} {x : Int64} (hle : -2 ^ 63 ≤ z) (hlt : z < 2 ^ 63) :
    Int64.ofInt z = x ↔ x.toInt = z := by
  rw [← Int64.toInt_inj, Int64.toInt_ofInt_of_le hle hlt, eq_comm]

theorem uint8_ofInt_eq_iff {z : Int} {x : UInt8} :
    UInt8.ofInt z = x ↔ (x.toNat : Int) ≡ z [ZMOD 2 ^ 8] := by
  have hofInt : (UInt8.ofInt z).toNat = (z % 2 ^ 8).toNat := by
    rw [UInt8.ofInt, UInt8.toNat_ofNat']
    omega
  have hlt := x.toNat_lt
  rw [← UInt8.toNat_inj, hofInt, Int.ModEq]
  omega

/-! ### One literal -/

namespace Converts

variable {v : Value} {x : Scalar} {z : Int}

/-- An integer above the range of a signed word has been read, and is refused where it is converted;
one below the range has not. -/
theorem int64?_eq_some : v.int64? = some z ↔ v.Integral z := by
  constructor
  · intro h
    cases v with
    | number n =>
      cases n with
      | integer value range =>
        simp only [Value.int64?, Number.int64?, Option.ite_none_right_eq_some,
          Option.some.injEq] at h
        obtain ⟨hlt, rfl⟩ := h
        exact ⟨⟨range, rfl⟩, range.1, hlt⟩
      | real value => cases h
    | _ => cases h
  · rintro ⟨⟨range, rfl⟩, -, hlt⟩
    exact if_pos hlt

theorem float_iff :
    Converts .float v x ↔ ∃ a, v.double?.map (·.convert .single) = some a ∧ x = .f32 a := by
  constructor
  · rintro ⟨n⟩
    exact ⟨_, rfl, rfl⟩
  · rintro ⟨a, ha, rfl⟩
    cases v with
    | number n =>
      obtain rfl := Option.some.inj ha
      exact .float n
    | _ => cases ha

theorem double_iff : Converts .double v x ↔ ∃ a, v.double? = some a ∧ x = .f64 a := by
  constructor
  · rintro ⟨n⟩
    exact ⟨_, rfl, rfl⟩
  · rintro ⟨a, ha, rfl⟩
    cases v with
    | number n =>
      obtain rfl := Option.some.inj ha
      exact .double n
    | _ => cases ha

theorem bool_iff : Converts .bool v x ↔ ∃ a, v.bool? = some a ∧ x = .bool a := by
  constructor
  · rintro ⟨b⟩
    exact ⟨_, rfl, rfl⟩
  · rintro ⟨a, ha, rfl⟩
    cases v with
    | bool b =>
      obtain rfl := Option.some.inj ha
      exact .bool b
    | _ => cases ha

/-- An integer type takes the integers of the range and casts them. -/
theorem integer_iff {α : Type} {ofInt : Int → α} {scalar : α → Scalar} {type : DataType}
    (htype : Converts type v x ↔ ∃ z a, v.Integral z ∧ ofInt z = a ∧ x = scalar a) :
    Converts type v x ↔ ∃ a, v.int64?.map ofInt = some a ∧ x = scalar a := by
  rw [htype]
  constructor
  · rintro ⟨z, a, hz, ha, hx⟩
    exact ⟨a, Option.map_eq_some_iff.mpr ⟨z, int64?_eq_some.mpr hz, ha⟩, hx⟩
  · rintro ⟨a, ha, hx⟩
    obtain ⟨z, hz, ha⟩ := Option.map_eq_some_iff.mp ha
    exact ⟨z, a, int64?_eq_some.mp hz, ha, hx⟩

theorem int8_iff :
    Converts .int8 v x ↔ ∃ a, v.int64?.map Int8.ofInt = some a ∧ x = .i8 a := by
  apply integer_iff
  constructor
  · intro h
    cases h with
    | int8 hz hx => exact ⟨_, _, hz, int8_ofInt_eq_iff.mpr hx, rfl⟩
  · rintro ⟨z, a, hz, ha, rfl⟩
    exact .int8 hz (int8_ofInt_eq_iff.mp ha)

theorem int32_iff :
    Converts .int32 v x ↔ ∃ a, v.int64?.map Int32.ofInt = some a ∧ x = .i32 a := by
  apply integer_iff
  constructor
  · intro h
    cases h with
    | int32 hz hx => exact ⟨_, _, hz, int32_ofInt_eq_iff.mpr hx, rfl⟩
  · rintro ⟨z, a, hz, ha, rfl⟩
    exact .int32 hz (int32_ofInt_eq_iff.mp ha)

theorem int64_iff :
    Converts .int64 v x ↔ ∃ a, v.int64?.map Int64.ofInt = some a ∧ x = .i64 a := by
  apply integer_iff
  constructor
  · intro h
    cases h with
    | int64 hz hx => exact ⟨_, _, hz, (int64_ofInt_eq_iff hz.2.1 hz.2.2).mpr hx, rfl⟩
  · rintro ⟨z, a, hz, ha, rfl⟩
    exact .int64 hz ((int64_ofInt_eq_iff hz.2.1 hz.2.2).mp ha)

theorem uint8_iff :
    Converts .uint8 v x ↔ ∃ a, v.int64?.map UInt8.ofInt = some a ∧ x = .u8 a := by
  apply integer_iff
  constructor
  · intro h
    cases h with
    | uint8 hz hx => exact ⟨_, _, hz, uint8_ofInt_eq_iff.mpr hx, rfl⟩
  · rintro ⟨z, a, hz, ha, rfl⟩
    exact .uint8 hz (uint8_ofInt_eq_iff.mp ha)

end Converts

theorem namedType_eq_ok {name : String} {type : DataType} :
    namedType name = .ok type ↔ DataType.ofName? name = some type := by
  unfold namedType
  cases DataType.ofName? name <;> simp

namespace TensorDef

variable {t : TensorDef} {type : DataType}

theorem expanded_single {v : Value} (h : t.values = [v]) :
    t.expanded = List.replicate t.shape.elements v := by
  rw [expanded, h]

theorem expanded_of_length_ne (h : t.values.length ≠ 1) : t.expanded = t.values := by
  unfold expanded
  split
  case h_1 hv => exact absurd (by rw [hv]; rfl) h
  case h_2 => rfl

/-- One value or as many as the shape asks for make as many as the shape asks for. -/
theorem length_expanded :
    t.expanded.length = t.shape.elements ↔
      t.values.length = 1 ∨ t.values.length = t.shape.elements := by
  by_cases hlength : t.values.length = 1
  · obtain ⟨w, hw⟩ := List.length_eq_one_iff.mp hlength
    simp [expanded_single hw, hlength]
  · simp [expanded_of_length_ne hlength, hlength]

theorem convert_eq_ok {α : Type} {read? : Value → Option α} {xs : Array α} :
    t.convert type read? = .ok xs ↔
      List.Forall₂ (fun v x => read? v = some x) t.expanded xs.toList := by
  unfold convert
  rw [except_bind_eq_ok]
  constructor
  · rintro ⟨values, hvalues, h⟩
    obtain rfl := Except.ok.inj h
    refine (except_mapM_eq_ok.mp hvalues).imp fun v x hx => ?_
    split at hx
    case h_1 ha => rw [ha, Except.ok.inj hx]
    case h_2 => cases hx
  · intro h
    refine ⟨xs.toList, except_mapM_eq_ok.mpr (h.imp fun v x hx => ?_), ?_⟩
    · simp only [hx]
    · rw [Array.toArray_toList]
      rfl

/-- A literal whose values are converted by `read?` and then collected. -/
theorem collected_spec {α : Type} {read? : Value → Option α} {wrap : Array α → Elements}
    {scalar : α → Scalar} (hwrap : ∀ xs, (wrap xs).scalars = xs.toList.map scalar)
    (htype : ∀ xs, type.element? = some (wrap xs).type)
    (hread : ∀ v x, Converts type v x ↔ ∃ a, read? v = some a ∧ x = scalar a) :
    (∀ data, (t.convert type read? >>= fun xs => pure (wrap xs)) = .ok data →
      type.element? = some data.type ∧
        List.Forall₂ (Converts type) t.expanded data.scalars) ∧
    ((∀ v ∈ t.expanded, ∃ x, Converts type v x) →
      ∃ data, (t.convert type read? >>= fun xs => pure (wrap xs)) = .ok data) := by
  constructor
  · intro data h
    obtain ⟨xs, hxs, h⟩ := except_bind_eq_ok.mp h
    obtain rfl := Except.ok.inj h
    refine ⟨htype xs, ?_⟩
    rw [hwrap, List.forall₂_map_right_iff]
    exact (convert_eq_ok.mp hxs).imp fun v a ha => (hread v _).mpr ⟨a, ha, rfl⟩
  · intro h
    have hvalues : ∀ v ∈ t.expanded, ∃ a, read? v = some a := by
      intro v hv
      obtain ⟨x, hx⟩ := h v hv
      obtain ⟨a, ha, -⟩ := (hread v x).mp hx
      exact ⟨a, ha⟩
    obtain ⟨as, has⟩ := exists_forall₂_iff.mpr hvalues
    have hconvert : t.convert type read? = .ok as.toArray := convert_eq_ok.mpr has
    exact ⟨wrap as.toArray, by rw [hconvert]; rfl⟩

/-- The elements of a literal in a type other than text: each stands where its value does, and they
exist if all the values convert. -/
theorem elements_spec (htype : type ≠ .string) :
    (∀ data, t.elements type = .ok data →
      type.element? = some data.type ∧
        List.Forall₂ (Converts type) t.expanded data.scalars) ∧
    ((∀ v ∈ t.expanded, ∃ x, Converts type v x) → ∃ data, t.elements type = .ok data) := by
  cases type with
  | float => exact collected_spec (fun _ => rfl) (fun _ => rfl) fun _ _ => Converts.float_iff
  | double => exact collected_spec (fun _ => rfl) (fun _ => rfl) fun _ _ => Converts.double_iff
  | int8 => exact collected_spec (fun _ => rfl) (fun _ => rfl) fun _ _ => Converts.int8_iff
  | int32 => exact collected_spec (fun _ => rfl) (fun _ => rfl) fun _ _ => Converts.int32_iff
  | int64 => exact collected_spec (fun _ => rfl) (fun _ => rfl) fun _ _ => Converts.int64_iff
  | uint8 => exact collected_spec (fun _ => rfl) (fun _ => rfl) fun _ _ => Converts.uint8_iff
  | bool => exact collected_spec (fun _ => rfl) (fun _ => rfl) fun _ _ => Converts.bool_iff
  | string => exact absurd rfl htype

/-- A literal is a tensor if its elements are as many as its shape asks for. -/
theorem tensor_eq_ok {value : Tensor} :
    t.tensor = .ok value ↔ ∃ type, DataType.ofName? t.type = some type ∧
      t.elements type = .ok value.data ∧ value.shape = t.shape := by
  unfold tensor
  -- the last step compares the sizes, which the tensor on the other side brings along
  constructor
  · intro h
    obtain ⟨type, htype, h⟩ := except_bind_eq_ok.mp h
    obtain ⟨data, hdata, h⟩ := except_bind_eq_ok.mp h
    refine ⟨type, namedType_eq_ok.mp htype, ?_⟩
    unfold Tensor.ofElements at h
    split at h
    case isTrue =>
      obtain rfl := Except.ok.inj h
      exact ⟨hdata, rfl⟩
    case isFalse => cases h
  · rintro ⟨type, htype, hdata, hshape⟩
    refine except_bind_eq_ok.mpr ⟨type, namedType_eq_ok.mpr htype, ?_⟩
    refine except_bind_eq_ok.mpr ⟨value.data, hdata, ?_⟩
    unfold Tensor.ofElements
    rw [dif_pos (hshape ▸ value.size_data)]
    cases value
    cases hshape
    rfl

/-- The tensor that a literal gives in a type: of the shape that the literal says, of the element
type, with as many elements as the shape asks for, and with each value of the literal converted in
its place. -/
structure Gives (t : TensorDef) (type : DataType) (value : Tensor) : Prop where
  shape : value.shape = t.shape
  element : type.element? = some value.type
  size : value.data.size = t.shape.prod
  scalars : List.Forall₂ (Converts type) t.expanded value.data.scalars

theorem not_text_of_elements {data : Elements} (h : t.elements type = .ok data) :
    type ≠ .string := by
  rintro rfl
  cases h

theorem gives_of_tensor {value : Tensor} (h : t.tensor = .ok value) :
    ∃ type, DataType.ofName? t.type = some type ∧ type ≠ .string ∧ t.Gives type value := by
  obtain ⟨type, hname, hdata, hshape⟩ := tensor_eq_ok.mp h
  have htext := not_text_of_elements hdata
  obtain ⟨helement, hscalars⟩ := (elements_spec htext).1 _ hdata
  have hsize : value.data.size = t.shape.prod := by
    rw [value.size_data, hshape, Shape.elements_eq_prod]
  exact ⟨type, hname, htext, hshape, helement, hsize, hscalars⟩

/-- A literal of a known type other than text is a tensor if it has one value or as many as its
shape asks for, and all of them convert. -/
theorem exists_tensor (hname : DataType.ofName? t.type = some type) (htext : type ≠ .string)
    (hcount : t.values.length = 1 ∨ t.values.length = t.shape.elements)
    (hvalues : ∀ v ∈ t.expanded, ∃ x, Converts type v x) : ∃ value, t.tensor = .ok value := by
  have hspec := elements_spec (t := t) htext
  obtain ⟨data, hdata⟩ := hspec.2 hvalues
  have hsize : data.size = t.shape.elements := by
    rw [← data.length_scalars, ← (hspec.1 data hdata).2.length_eq]
    exact length_expanded.mpr hcount
  exact ⟨⟨t.shape, data, hsize⟩, tensor_eq_ok.mpr ⟨type, hname, hdata, rfl⟩⟩

theorem Gives.count {value : Tensor} (h : t.Gives type value) :
    t.values.length = 1 ∨ t.values.length = t.shape.elements := by
  apply length_expanded.mp
  rw [h.scalars.length_eq, Elements.length_scalars, value.size_data, h.shape]

end TensorDef

/-! ### The literals of a document -/

theorem AttrDef.attribute_eq_tensor {attr : AttrDef} {value : Tensor}
    (h : attr.attribute = .ok (.tensor value)) :
    ∃ t, attr = .tensor t ∧ t.tensor = .ok value := by
  cases attr with
  | tensor t =>
    obtain ⟨value', hvalue, h⟩ := except_bind_eq_ok.mp h
    obtain rfl := Attribute.tensor.inj (Except.ok.inj h)
    exact ⟨t, rfl, hvalue⟩
  | type name =>
    obtain ⟨_, -, h⟩ := except_bind_eq_ok.mp h
    cases h
  | _ => cases h

theorem Source.Node.mem_entries_of_tensor {v : Source.Node} {key : String} {value : Tensor}
    (h : v.tensor key = .ok value) : (key, .tensor value) ∈ v.attrs.entries := by
  obtain ⟨attr, hattr, hread⟩ := Option.bind_eq_some_iff.mp (Node.attrOfKind_eq_ok.mp h)
  obtain ⟨front, rest, hentries, -⟩ := List.lookup_eq_some_iff.mp hattr
  have hmem : (key, attr) ∈ v.attrs.entries := by
    rw [hentries]
    exact List.mem_append_right front List.mem_cons_self
  cases attr with
  | tensor value' =>
    obtain rfl := Option.some.inj hread
    exact hmem
  | _ => cases hread

/-- Every tensor among the attributes of a node is the tensor of a literal that the definition of the
node has under the same key. -/
theorem Document.exists_literal_of_tensor {doc : Document} {g : Source.Graph}
    (hg : doc.graph = .ok g) {i : Nat} {v : Source.Node} (hv : g.node? i = some v) :
    ∃ d, doc.nodes[i]? = some d ∧ ∀ key value, v.tensor key = .ok value →
      ∃ t, (key, .tensor t) ∈ d.attrs ∧ t.tensor = .ok value := by
  obtain ⟨g', hg', -, hdescribes⟩ | ⟨error, herror, -⟩ := graph_cases doc
  · obtain rfl := Except.ok.inj (hg'.symm.trans hg)
    obtain ⟨d, hd, hdefines⟩ := exists_getElem?_of_node? hdescribes.nodes hv
    refine ⟨d, hd, fun key value h => ?_⟩
    obtain ⟨⟨_, attr⟩, hmem, rfl, hattr⟩ :=
      forall₂_exists_left hdefines.attrs (Node.mem_entries_of_tensor h)
    obtain ⟨t, rfl, ht⟩ := AttrDef.attribute_eq_tensor hattr
    exact ⟨t, hmem, ht⟩
  · rw [herror] at hg
    cases hg

/-- **Literals load with the size that they say.** A literal is a tensor exactly if its type is
known and not text, it has one value or as many as its shape asks for, and all its values convert,
of which there are none if the shape is empty. The tensor has the shape and the type of the literal
and, in the place of each value, what the value stands for. The tensors among the attributes of a
loaded graph and the constants that are lowered from it are tensors of the literals that the text
has at the same node and key, and so all of them have as many elements as the product of their
shape. -/
theorem tensor_literals_load :
    (∀ t : TensorDef,
      (∀ v, t.values = [v] → t.expanded = List.replicate t.shape.prod v) ∧
      (t.values.length ≠ 1 → t.expanded = t.values) ∧
      ((∃ value, t.tensor = .ok value) ↔
        ∃ type, DataType.ofName? t.type = some type ∧ type ≠ .string ∧
          (t.values.length = 1 ∨ t.values.length = t.shape.prod) ∧
          ∀ v ∈ t.expanded, ∃ x, Converts type v x) ∧
      ∀ value, t.tensor = .ok value →
        ∃ type, DataType.ofName? t.type = some type ∧ t.Gives type value) ∧
    ∀ (text : String) (g : Source.Graph), loadGraph text = .ok g →
      ∃ doc, Document.read? text = some doc ∧ doc.graph = .ok g ∧
        ∀ i v, g.node? i = some v → ∃ d, doc.nodes[i]? = some d ∧
          (∀ key value, v.tensor key = .ok value →
            ∃ t, (key, .tensor t) ∈ d.attrs ∧ t.tensor = .ok value ∧ value.shape = t.shape ∧
              value.data.size = t.shape.prod) ∧
          ∀ (ctx : Context) ws f outputs h, ctx.node = v →
            Rule.constant ctx ws f = .ok outputs h →
            ∃ t value, ("value", .tensor t) ∈ d.attrs ∧ t.tensor = .ok value ∧
              h = f.push (.constant value) [] ⟨value.type, t.shape⟩ ∧
              value.data.size = t.shape.prod := by
  constructor
  · intro t
    rw [← t.shape.elements_eq_prod]
    refine ⟨fun v hv => TensorDef.expanded_single hv, TensorDef.expanded_of_length_ne, ?_, ?_⟩
    · constructor
      · rintro ⟨value, hvalue⟩
        obtain ⟨type, hname, htext, hgives⟩ := TensorDef.gives_of_tensor hvalue
        refine ⟨type, hname, htext, hgives.count, ?_⟩
        intro v hv
        obtain ⟨x, -, hx⟩ := forall₂_exists_right hgives.scalars hv
        exact ⟨x, hx⟩
      · rintro ⟨type, hname, htext, hcount, hvalues⟩
        exact TensorDef.exists_tensor hname htext hcount hvalues
    · intro value hvalue
      obtain ⟨type, hname, -, hgives⟩ := TensorDef.gives_of_tensor hvalue
      exact ⟨type, hname, hgives⟩
  · intro text g hload
    obtain ⟨doc, hread, hg⟩ := loadGraph_eq_ok.mp hload
    refine ⟨doc, hread, hg, fun i v hv => ?_⟩
    obtain ⟨d, hd, hliteral⟩ := Document.exists_literal_of_tensor hg hv
    refine ⟨d, hd, ?_, ?_⟩
    · intro key value h
      obtain ⟨t, ht, hvalue⟩ := hliteral key value h
      obtain ⟨type, -, -, hgives⟩ := TensorDef.gives_of_tensor hvalue
      exact ⟨t, ht, hvalue, hgives.shape, hgives.size⟩
    · rintro ctx ws f outputs h rfl hrule
      obtain ⟨value, hvalue, rfl, -⟩ := Rule.constant_eq_ok hrule
      obtain ⟨t, ht, htensor⟩ := hliteral "value" value hvalue
      obtain ⟨type, -, -, hgives⟩ := TensorDef.gives_of_tensor htensor
      exact ⟨t, value, ht, htensor, by rw [hgives.shape], hgives.size⟩

/-- A text that fills no place of an empty shape, no value for a scalar, and one value that is too
large for its type and fills two places. -/
theorem tensor_literals_load_edges :
    (∃ value, TensorDef.tensor ⟨"DT_INT8", [3, 0], [.string "x"]⟩ = .ok value ∧
      value.shape = [3, 0] ∧ value.data.size = 0) ∧
    (¬ ∃ value, TensorDef.tensor ⟨"DT_INT8", [], []⟩ = .ok value) ∧
    ∃ value, TensorDef.tensor ⟨"DT_INT8", [2], [.number (.integer 300 (by decide))]⟩ = .ok value ∧
      value.type = .i8 ∧ value.data.scalars.length = 2 ∧
      ∀ x ∈ value.data.scalars, ∃ a : Int8, x = .i8 a ∧ a.toInt = 44 := by
  refine ⟨?_, ?_, ?_⟩
  · obtain ⟨-, -, hiff, hgives⟩ := tensor_literals_load.1 ⟨"DT_INT8", [3, 0], [.string "x"]⟩
    obtain ⟨value, hvalue⟩ := hiff.mpr ⟨.int8, rfl, nofun, .inl rfl, nofun⟩
    obtain ⟨type, -, hgives⟩ := hgives value hvalue
    exact ⟨value, hvalue, hgives.shape, hgives.size⟩
  · obtain ⟨-, -, hiff, -⟩ := tensor_literals_load.1 ⟨"DT_INT8", [], []⟩
    rw [hiff]
    rintro ⟨type, -, -, hcount, -⟩
    exact absurd hcount (by decide)
  · obtain ⟨-, -, hiff, hgives⟩ :=
      tensor_literals_load.1 ⟨"DT_INT8", [2], [.number (.integer 300 (by decide))]⟩
    have hconverts : Converts .int8 (.number (.integer 300 (by decide))) (.i8 44) :=
      .int8 ⟨⟨_, rfl⟩, by decide, by decide⟩ (by decide)
    obtain ⟨value, hvalue⟩ := hiff.mpr ⟨.int8, rfl, nofun, .inl rfl, by
      intro v hv
      rw [List.eq_of_mem_replicate hv]
      exact ⟨_, hconverts⟩⟩
    obtain ⟨type, htype, hgives⟩ := hgives value hvalue
    obtain rfl : .int8 = type := Option.some.inj htype
    refine ⟨value, hvalue, (Option.some.inj hgives.element).symm, hgives.scalars.length_eq.symm, ?_⟩
    intro x hx
    obtain ⟨v, hv, hx⟩ := forall₂_exists_left hgives.scalars hx
    obtain rfl := List.eq_of_mem_replicate hv
    cases hx with
    | @int8 _ z a hz ha =>
      obtain ⟨⟨_, hz⟩, -⟩ := hz
      obtain rfl := (Number.integer.injEq .. ▸ Value.number.inj hz : 300 = z)
      exact ⟨a, rfl, congrArg Int8.toInt (int8_ofInt_eq_iff.mpr ha).symm⟩

end GraphLowering
