import GraphLowering.Binary.Format
import GraphLowering.Error
import GraphLowering.Word

/-!
# Tensor values

A tensor value is a shape together with as many elements as the shape asks for; the count is part
of the type. Floating-point elements are kept as their bits.

* `Elements` — the elements of one tensor, all of one type.
* `Tensor.ofElements` — pairs a shape with elements and refuses a wrong count.
* `Tensor.filled` — one value in every place, cast to the element type.
* `Tensor.ints?` — the contents of an integer tensor.
* `Tensor.sameNumbers` — equality that compares floating-point elements as numbers.
-/

namespace GraphLowering

/-- The elements of a tensor in row-major order. -/
inductive Elements where
  | f32 (xs : Array Binary32)
  | f64 (xs : Array Binary64)
  | i8 (xs : Array Int8)
  | i32 (xs : Array Int32)
  | i64 (xs : Array Int64)
  | u8 (xs : Array UInt8)
  | bool (xs : Array Bool)
  deriving DecidableEq

namespace Elements

/-- How many elements there are. -/
def size : Elements → Nat
  | f32 xs => xs.size
  | f64 xs => xs.size
  | i8 xs => xs.size
  | i32 xs => xs.size
  | i64 xs => xs.size
  | u8 xs => xs.size
  | bool xs => xs.size

/-- The type of the elements. -/
def type : Elements → ElementType
  | f32 _ => .f32
  | f64 _ => .f64
  | i8 _ => .i8
  | i32 _ => .i32
  | i64 _ => .i64
  | u8 _ => .u8
  | bool _ => .bool

/-- The elements as integers; floating-point and Boolean elements are none. -/
def ints? : Elements → Option (List Int)
  | i8 xs => some (xs.toList.map Int8.toInt)
  | i32 xs => some (xs.toList.map Int32.toInt)
  | i64 xs => some (xs.toList.map Int64.toInt)
  | u8 xs => some (xs.toList.map fun x => (x.toNat : Int))
  | f32 _ | f64 _ | bool _ => none

/-- `count` copies of a number, cast to the element type: the nearest floating-point word, the
nearest integer of the type's range after the fraction is dropped, or whether the number differs
from zero. -/
def replicate (type : ElementType) (count : Nat) (value : Binary64) : Elements :=
  match type with
  | .f32 => f32 (Array.replicate count (value.convert .single))
  | .f64 => f64 (Array.replicate count value)
  | .i8 => i8 (Array.replicate count (Int8.ofInt (value.clampToInt (-128) 127)))
  | .i32 => i32 (Array.replicate count (Int32.ofInt (value.clampToInt (-2147483648) 2147483647)))
  | .i64 => i64 (Array.replicate count (Int64.ofInt (value.clampToInt (-signedLimit) (signedLimit - 1))))
  | .u8 => u8 (Array.replicate count (UInt8.ofNat (value.clampToInt 0 255).toNat))
  | .bool => bool (Array.replicate count !value.isZero)

@[simp] theorem size_replicate (type : ElementType) (count : Nat) (value : Binary64) :
    (replicate type count value).size = count := by
  cases type <;> simp [replicate, size]

@[simp] theorem type_replicate (type : ElementType) (count : Nat) (value : Binary64) :
    (replicate type count value).type = type := by
  cases type <;> rfl

/-- Equality of elements, floating-point elements compared as numbers. -/
def sameNumbers : Elements → Elements → Bool
  | f32 xs, f32 ys => xs.isEqv ys Binary.sameNumber
  | f64 xs, f64 ys => xs.isEqv ys Binary.sameNumber
  | xs, ys => xs = ys

end Elements

/-- A shape with as many elements as it asks for. -/
structure Tensor where
  shape : Shape
  data : Elements
  size_data : data.size = shape.elements
  deriving DecidableEq

namespace Tensor

/-- The type of the elements. -/
def type (t : Tensor) : ElementType := t.data.type

/-- Pairs a shape with elements, refusing a wrong count. -/
def ofElements (shape : Shape) (data : Elements) : Except Error Tensor :=
  if h : data.size = shape.elements then .ok ⟨shape, data, h⟩
  else .error (.invalid (.tensorSize shape data.size))

/-- One value in every place, cast to the element type. -/
def filled (type : ElementType) (shape : Shape) (value : Binary64) : Tensor :=
  ⟨shape, .replicate type shape.elements value, by simp⟩

/-- A vector of 64-bit integers. -/
def vector64 (values : List Int) : Tensor :=
  ⟨[values.length], .i64 (values.map Int64.ofInt).toArray, by simp [Elements.size]⟩

/-- A vector of 32-bit integers, each the value modulo `2 ^ 32`. -/
def vector32 (values : List Int) : Tensor :=
  ⟨[values.length], .i32 (values.map Int32.ofInt).toArray, by simp [Elements.size]⟩

/-- The contents of an integer tensor. -/
def ints? (t : Tensor) : Option (List Int) := t.data.ints?

/-- Equality of tensors, floating-point elements compared as numbers. -/
def sameNumbers (t u : Tensor) : Bool := t.shape = u.shape && t.data.sameNumbers u.data

end Tensor

end GraphLowering
