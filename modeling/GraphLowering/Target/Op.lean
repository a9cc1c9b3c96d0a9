import GraphLowering.Tensor

/-!
# Target ops

The vocabulary of lowered functions. Window ops take channels-first data `[N, C, spatial..]` and
filters `[O, I, spatial..]`.

* `Op` — the ops with their constants.
* `Op.name` — the printed name.
* `Op.sameNumbers` — equality that compares floating-point constants as numbers.
-/

namespace GraphLowering.Target

/-- Elementwise ops on two tensors of one type. -/
inductive BinaryOp where
  | add
  | subtract
  | multiply
  | divide
  | maximum
  | minimum
  deriving DecidableEq

/-- Elementwise ops on one tensor. -/
inductive UnaryOp where
  | negative
  | floor
  | relu
  | sigmoid
  | tanh
  | exp
  | sqrt
  deriving DecidableEq

/-- How the filters of a convolution move over the data, one entry for each spatial axis. -/
structure ConvolutionWindow where
  strides : List Nat
  dilations : List Nat
  below : List Nat
  above : List Nat
  deriving DecidableEq

/-- How the window of a pooling op moves over the data, one entry for each spatial axis. -/
structure PoolWindow where
  window : List Nat
  strides : List Nat
  below : List Nat
  above : List Nat
  deriving DecidableEq

/-- An op of a lowered function.

* `dot` contracts the last axis of its first operand with the first axis of the second.
* `broadcast` repeats its operand along `axes` of the result.
* `reshape` permutes the axes by `order` and then reads the elements in row-major order as `shape`.
-/
inductive Op where
  | parameter (index : Nat)
  | constant (value : Tensor)
  | binary (f : BinaryOp)
  | unary (f : UnaryOp)
  | convert (element : ElementType)
  | dot
  | broadcast (shape : Shape) (axes : List Nat)
  | reshape (order : List Nat) (shape : Shape)
  | slice (lower upper strides : List Nat)
  | concat (axis : Nat)
  | sum (axes : List Nat)
  | softmax (axes : List Nat)
  | convolution (window : ConvolutionWindow)
  | maxPool (window : PoolWindow)
  | avgPool (window : PoolWindow) (includePadding : Bool)
  deriving DecidableEq

/-- The printed name of an elementwise op on two tensors. -/
def BinaryOp.name : BinaryOp → String
  | add => "Add"
  | subtract => "Subtract"
  | multiply => "Multiply"
  | divide => "Divide"
  | maximum => "Maximum"
  | minimum => "Minimum"

/-- The printed name of an elementwise op on one tensor. -/
def UnaryOp.name : UnaryOp → String
  | negative => "Negative"
  | floor => "Floor"
  | relu => "Relu"
  | sigmoid => "Sigmoid"
  | tanh => "Tanh"
  | exp => "Exp"
  | sqrt => "Sqrt"

namespace Op

/-- The printed name of an op. -/
def name : Op → String
  | parameter _ => "Parameter"
  | constant _ => "Constant"
  | binary f => f.name
  | unary f => f.name
  | convert _ => "Convert"
  | dot => "Dot"
  | broadcast _ _ => "Broadcast"
  | reshape _ _ => "Reshape"
  | slice _ _ _ => "Slice"
  | concat _ => "Concat"
  | sum _ => "Sum"
  | softmax _ => "Softmax"
  | convolution _ => "Convolution"
  | maxPool _ => "MaxPool"
  | avgPool _ _ => "AvgPool"

/-- Equality of ops, floating-point constants compared as numbers. -/
def sameNumbers : Op → Op → Bool
  | constant t, constant u => t.sameNumbers u
  | a, b => a = b

end Op

end GraphLowering.Target
