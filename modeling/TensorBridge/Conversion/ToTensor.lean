import TensorBridge.Conversion.Basic

/-!
# From the nested value to the tensor

The value is taken to be rectangular: the size of every layer is that of its first element, and so are
the sizes of the blocks, unless the container fixes them. A value with vector layers may be empty; then
it has no first element, and the tensor is allocated with no element along its first axis.
-/

namespace TensorBridge

namespace Conversion

/-- The extents that the tensor is allocated with: the sizes of all axes, then the channels if there are
several. -/
def allocatedExtents (n : Names) (s : Shape) : List Expr :=
  n.sizes 0 s.rank ++ List.replicate s.element.channelAxes (.count s.element.channels)

/-- The extents of the tensor of an empty value: zero along the first axis and along every other one
whose extent is not known. -/
def emptyAllocation (s : Shape) : List Expr :=
  .count 0 :: (s.extents.drop 1).map (fun extent => .count (extent.getD 0)) ++
    List.replicate s.element.channelAxes (.count s.element.channels)

/-- Declares the sizes of the vector layers, each read off its first element. -/
def layerSizes (n : Names) (s : Shape) : List Stmt :=
  (List.range s.vectorRank).map fun axis =>
    n.declareSize axis (.method ((Expr.name n.value).subscripts (zeroIndices axis)) false "size" [])

/-- Declares the sizes of the block axes. -/
def blockSizes (n : Names) (s : Shape) (block : Expr) : List Stmt :=
  s.block.zipIdx.map fun (extent, offset) =>
    n.declareSize (s.vectorRank + offset)
      (if s.element.container.isFixed then .count (extent.getD 0)
        else .subscript (.member block "size") (.count offset))

/-- Copies one element of a block into the tensor. -/
def readElement (n : Names) (s : Shape) (block : Expr) : List Stmt :=
  (elementPairs n s block n.dataOut).map fun (element, datum) => .assign datum element

/-- The block at the loop variables of the vector layers; without layers the value itself. -/
def currentBlock (n : Names) (s : Shape) : Expr := (Expr.name n.value).subscripts (n.indices 0 s.vectorRank)

/-- The first block. -/
def firstBlock (n : Names) (s : Shape) : Expr := (Expr.name n.value).subscripts (zeroIndices s.vectorRank)

/-- The copy of the value at the loop variables of all axes. -/
def copyInnermost (n : Names) (s : Shape) : List Stmt :=
  if s.hasBlock then readElement n s (currentBlock n s)
  else [.assign (.callNamed n.dataOut (primitiveIndex n s)) (currentBlock n s)]

/-- The conversion of a nested value to a tensor. -/
def toTensor (n : Names) (s : Shape) : Conversion :=
  { direction := .toTensor
    sizes := layerSizes n s ++ blockSizes n s (firstBlock n s)
    body := nested (n.plainLoops 0 s.rank) (copyInnermost n s)
    extents := allocatedExtents n s
    emptyTest := if s.vectors.isEmpty then none else some (.method (.name n.value) false "empty" [])
    emptyExtents := if s.vectors.isEmpty then [] else emptyAllocation s }

end Conversion

end TensorBridge
