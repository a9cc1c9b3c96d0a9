import GraphLowering.Element

/-!
# Host data types

The types a host graph declares for its values. Every one of them but the strings has an element
type in lowered functions.
-/

namespace GraphLowering

/-- A type that a host graph declares. -/
inductive DataType where
  | float
  | double
  | int8
  | int32
  | int64
  | uint8
  | bool
  | string
  deriving DecidableEq

namespace DataType

/-- The declared name. -/
def name : DataType → String
  | float => "DT_FLOAT"
  | double => "DT_DOUBLE"
  | int8 => "DT_INT8"
  | int32 => "DT_INT32"
  | int64 => "DT_INT64"
  | uint8 => "DT_UINT8"
  | bool => "DT_BOOL"
  | string => "DT_STRING"

/-- The data type with a declared name. -/
def ofName? : String → Option DataType
  | "DT_FLOAT" => some float
  | "DT_DOUBLE" => some double
  | "DT_INT8" => some int8
  | "DT_INT32" => some int32
  | "DT_INT64" => some int64
  | "DT_UINT8" => some uint8
  | "DT_BOOL" => some bool
  | "DT_STRING" => some string
  | _ => none

/-- The element type of lowered tensors; strings have none. -/
def element? : DataType → Option ElementType
  | float => some .f32
  | double => some .f64
  | int8 => some .i8
  | int32 => some .i32
  | int64 => some .i64
  | uint8 => some .u8
  | bool => some .bool
  | string => none

end DataType

end GraphLowering
