import GraphLowering.Tensor
import GraphLowering.NameTable

/-!
# Attributes

The named constants that a host graph attaches to a node. A reader asks for an attribute of one
kind and learns whether it is missing or of another kind.
-/

namespace GraphLowering

/-- The value of an attribute. -/
inductive Attribute where
  | int (value : Int)
  | float (value : Binary32)
  | bool (value : Bool)
  | text (value : String)
  | type (value : DataType)
  | shape (dims : List Int)
  | ints (values : List Int)
  | tensor (value : Tensor)
  deriving DecidableEq

namespace Attribute

/-- The name of the attribute's kind in messages. -/
def kind : Attribute → String
  | int _ => "int"
  | float _ => "float"
  | bool _ => "bool"
  | text _ => "string"
  | type _ => "type"
  | shape _ => "shape"
  | ints _ => "list(int)"
  | tensor _ => "tensor"

/-- The integer of an attribute of kind `int`. -/
def int? : Attribute → Option Int
  | int value => some value
  | _ => none

/-- The Boolean of an attribute of kind `bool`. -/
def bool? : Attribute → Option Bool
  | bool value => some value
  | _ => none

/-- The text of an attribute of kind `string`. -/
def text? : Attribute → Option String
  | text value => some value
  | _ => none

/-- The data type of an attribute of kind `type`. -/
def type? : Attribute → Option DataType
  | type value => some value
  | _ => none

/-- The integers of an attribute of kind `list(int)`; a shape serves as well. -/
def ints? : Attribute → Option (List Int)
  | ints values => some values
  | shape dims => some dims
  | _ => none

/-- The tensor of an attribute of kind `tensor`. -/
def tensor? : Attribute → Option Tensor
  | tensor value => some value
  | _ => none

end Attribute

end GraphLowering
