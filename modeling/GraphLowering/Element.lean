/-!
# Element types

The types of a tensor's elements in a lowered function, and the names under which they are printed.
-/

namespace GraphLowering

/-- The type of the elements of a tensor in a lowered function. -/
inductive ElementType where
  | f32
  | f64
  | i8
  | i32
  | i64
  | u8
  | bool
  deriving DecidableEq

namespace ElementType

/-- The printed name. -/
def name : ElementType → String
  | f32 => "f32"
  | f64 => "f64"
  | i8 => "i8"
  | i32 => "i32"
  | i64 => "i64"
  | u8 => "u8"
  | bool => "bool"

/-- The element type with a printed name. -/
def ofName? : String → Option ElementType
  | "f32" => some f32
  | "f64" => some f64
  | "i8" => some i8
  | "i32" => some i32
  | "i64" => some i64
  | "u8" => some u8
  | "bool" => some bool
  | _ => none

end ElementType

end GraphLowering
