import TensorBridge.Conversion.Names
import TensorBridge.Shape.Basic

/-!
# Conversions

The code that copies one operand between its tensor and its nested value: declarations of the sizes,
then the copy. Towards the tensor a conversion also gives the extents that the tensor is allocated with,
and for a value that may be empty, the test for that and the extents in that case.

This module has what both directions share: sizes, conditions, loops over axes, and the copy of one
element.
-/

namespace TensorBridge

/-- Which way values are copied. -/
inductive Direction
  | toValue
  | toTensor
deriving DecidableEq, Repr

namespace Direction

/-- The directions. -/
def all : List Direction := [.toValue, .toTensor]

/-- The name of a direction. -/
def name : Direction → String
  | .toValue => "tensor_to_cv"
  | .toTensor => "cv_to_tensor"

/-- The direction of a name. -/
def ofName? (name : String) : Option Direction := all.find? (·.name == name)

end Direction

/-- The code for one operand in one direction. -/
structure Conversion where
  direction : Direction
  sizes : List Stmt
  body : List Stmt
  extents : List Expr
  emptyTest : Option Expr
  emptyExtents : List Expr

/-- The indices that point at the first element of the axes left over. -/
def zeroIndices (n : Nat) : List Expr := List.replicate n (.count 0)

namespace Names

/-- Declares the size of an axis. -/
def declareSize (n : Names) (axis : Nat) (extent : Expr) : Stmt :=
  .constant "int32" (n.size axis) (.callNamed "static_cast<int32>" [extent])

/-- A loop over an axis, with statements before the inner loop. -/
def loopOver (n : Names) (axis : Nat) (before : List Stmt) : Loop :=
  { var := n.index axis, bound := n.sizeOf axis, before := before, after := [] }

/-- Plain loops over `count` axes from `first` on. -/
def plainLoops (n : Names) (first count : Nat) : List Loop :=
  (List.range' first count).map fun axis => n.loopOver axis []

end Names

/-- The report of a bad argument, with further texts. -/
def invalidArgument (message : String) (details : List Expr) : Expr :=
  .callNamed "errors::InvalidArgument" (.string message :: details)

/-- Ends the kernel's run with a report unless a condition holds. -/
def requireThat (condition report : Expr) : Stmt :=
  .eval (.callNamed "OP_REQUIRES" [.name "context", condition, report])

/-- The indices of a primitive value in the tensor: one for each vector layer, and for a lone value a
zero. -/
def primitiveIndex (n : Names) (s : Shape) : List Expr :=
  if s.vectors.isEmpty then [.count 0] else n.indices 0 s.vectorRank

/-- The two sides of the copy of one element: the element of the block and the value of the tensor.
Several channels give one pair each. -/
def elementPairs (n : Names) (s : Shape) (block : Expr) (data : String) : List (Expr × Expr) :=
  let element :=
    Expr.element block s.element.container (n.indices s.vectorRank s.blockRank) s.element.valueType
  let index := n.indices 0 s.rank
  if s.element.channels = 1 then [(element, .callNamed data index)]
  else
    (List.range s.element.channels).map fun channel =>
      (.subscript element (.count channel), .callNamed data (index ++ [.count channel]))

end TensorBridge
