import TensorBridge.Shape.Element

/-!
# Shapes

The shape of one operand: layers of vectors, outermost first, around the axes of a block, around an
element. The tensor has one axis for each of them and one more for several channels. The C++ side is a
value of a nested type: vectors of vectors around a primitive value or a block.
-/

namespace TensorBridge

/-- The shape of an operand. -/
structure Shape where
  vectors : List Extent
  block : List Extent
  element : Element
deriving DecidableEq, Repr

/-- The layouts that a shape can have. -/
inductive ShapeKind
  | scalar
  | vectorOfPrimitive
  | vectorOfMatrix
  | matrix
deriving DecidableEq, Repr

namespace ShapeKind

/-- The name of a layout. -/
def name : ShapeKind → String
  | .scalar => "SCALAR"
  | .vectorOfPrimitive => "VEC_OF_PRIM"
  | .vectorOfMatrix => "VEC_OF_MAT"
  | .matrix => "MAT"

/-- Whether values of a layout hold blocks. -/
def hasBlock (kind : ShapeKind) : Bool := kind == .vectorOfMatrix || kind == .matrix

end ShapeKind

/-- A C++ type inside some layers of vectors. -/
def vectorType (core : String) : Nat → String
  | 0 => core
  | layers + 1 => "vector<" ++ vectorType core layers ++ ">"

namespace Shape

/-- The axes from the outside in. -/
def dims (s : Shape) : List Dim := s.vectors.map .vector ++ s.block.map .block

/-- The extents of the axes from the outside in. -/
def extents (s : Shape) : List Extent := s.vectors ++ s.block

/-- The number of vector layers. -/
def vectorRank (s : Shape) : Nat := s.vectors.length

/-- The number of axes of one block. -/
def blockRank (s : Shape) : Nat := s.block.length

/-- The number of axes of the nested value. -/
def rank (s : Shape) : Nat := s.vectorRank + s.blockRank

/-- The number of axes of the tensor. -/
def tensorRank (s : Shape) : Nat := s.rank + s.element.channelAxes

/-- The layout of a shape. -/
def kind (s : Shape) : ShapeKind :=
  if s.element.isMatrix then
    if s.vectors.isEmpty then .matrix else .vectorOfMatrix
  else
    if s.vectors.isEmpty then .scalar else .vectorOfPrimitive

/-- Whether values of a shape hold blocks. -/
def hasBlock (s : Shape) : Bool := s.kind.hasBlock

/-- The C++ type of one block. The sizes of a fixed container are part of its type; a fixed matrix of
one axis is a single row. -/
def blockType (s : Shape) : String :=
  match s.element.container with
  | .mat => "Mat"
  | fixed =>
    let sizes := s.block.map extentText
    let sizes := if fixed = .matx ∧ sizes.length = 1 then "1" :: sizes else sizes
    fixed.name ++ "<" ++ s.element.scalar ++ ", " ++ commaList sizes ++ ">"

/-- The C++ type of one block, for a shape that has blocks. -/
def blockType? (s : Shape) : Option String := if s.hasBlock then some s.blockType else none

/-- The C++ type of the whole value. -/
def declaredType (s : Shape) : String :=
  vectorType (if s.hasBlock then s.blockType else s.element.scalar) s.vectorRank

end Shape

end TensorBridge
