import TensorBridge.Cpp.Tree

/-!
# Names of an operand

The C++ identifiers of a kernel's conversions. Each is an operand's name with an ending for its job;
those of one axis end in the number of the axis, so that the declaration of a size and the loop up to it
agree.
-/

namespace TensorBridge

/-- The name of an operand, from which its identifiers are made. -/
structure Names where
  base : String
deriving DecidableEq, Repr

namespace Names

/-- The input tensor. -/
def tensorIn (n : Names) : String := n.base ++ "_in"

/-- The output tensor. -/
def tensorOut (n : Names) : String := n.base ++ "_out"

/-- The values of the input tensor by index. -/
def dataIn (n : Names) : String := n.base ++ "_in_data"

/-- The values of the output tensor by index. -/
def dataOut (n : Names) : String := n.base ++ "_out_data"

/-- The nested value that the user's function takes. -/
def value (n : Names) : String := n.base ++ "_cv"

/-- The extents of an operand that is a single block. -/
def shape (n : Names) : String := n.base ++ "_shape"

/-- The extents of one block of several. -/
def blockShape (n : Names) : String := n.base ++ "_mat_shape"

/-- The block that is being filled. -/
def block (n : Names) : String := n.base ++ "_mat"

/-- The loop variable of an axis. -/
def index (n : Names) (axis : Int) : String := n.base ++ "_dims_" ++ toString axis

/-- The extent of an axis. -/
def size (n : Names) (axis : Int) : String := n.base ++ "_dims_size_" ++ toString axis

/-- The extent of an axis as an expression. -/
def sizeOf (n : Names) (axis : Nat) : Expr := .name (n.size axis)

/-- The loop variables of `count` axes from `first` on. -/
def indices (n : Names) (first count : Nat) : List Expr :=
  (List.range' first count).map fun axis : Nat => .name (n.index axis)

/-- The extents of `count` axes from `first` on. -/
def sizes (n : Names) (first count : Nat) : List Expr :=
  (List.range' first count).map n.sizeOf

end Names

end TensorBridge
