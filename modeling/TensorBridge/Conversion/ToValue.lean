import TensorBridge.Conversion.Basic
import TensorBridge.Log

/-!
# From the tensor to the nested value

A vector layer grows as its loop runs; the outermost one has its length from the start if it holds
further vectors. A row of unknown length inside other vectors travels through a rectangular tensor in
full length. If its values are floating-point numbers, a NaN marks its end and the loop stops there,
before anything is appended; other values have no such mark, and the row is copied to the full extent
under a warning, which the loop leaves where it is built.
-/

namespace TensorBridge

namespace Conversion

/-- Whether an axis is a vector layer inside others whose extent is not known. -/
def isOpenRow (axis : Nat) (extent : Extent) : Bool := decide (0 < axis) && extent.isNone

/-- Declares the sizes of all tensor axes, and requires those that the type of the value fixes. -/
def tensorSizes (n : Names) (s : Shape) : List Stmt :=
  let declared := (List.range s.tensorRank).map fun axis =>
    n.declareSize axis (.method (.name n.tensorIn) false "dim_size" [.count axis])
  let fixed :=
    if s.element.container.isFixed then
      (s.block.zipIdx s.vectorRank).map fun (extent, axis) =>
        requireThat (.binary "==" (n.sizeOf axis) (.count (extent.getD 0)))
          (invalidArgument
            (n.base ++ " must have " ++ extentText extent ++ " elements in dimension " ++ toString axis) [])
    else []
  let channels :=
    if 1 < s.element.channels then
      [requireThat (.binary "==" (n.sizeOf s.rank) (.count s.element.channels))
        (invalidArgument
          (n.base ++ " must have " ++ toString s.element.channels ++ " channels in dimension " ++
            toString s.rank) [])]
    else []
  declared ++ fixed ++ channels

/-- Stops the loop over an axis where the first value of the row's next element is NaN. -/
def stopAtNaN (n : Names) (s : Shape) (axis : Nat) : Stmt :=
  let probe := Expr.callNamed n.dataIn (n.indices 0 (axis + 1) ++ zeroIndices (s.tensorRank - axis - 1))
  .branch (.callNamed "std::isnan" [probe]) [.stop] []

/-- The warning about a row that is copied in full. -/
def unmarkedRowRecord (name : String) (s : Shape) (axis : Nat) : Record :=
  { level := .warning
    source := .conversions
    message :=
      name ++ ": dimension " ++ toString axis ++ " is a dynamic vector dimension of " ++ s.element.scalar ++
        " elements; integers have no NaN end marker, so every row is copied to the full tensor extent" }

/-- What is done about the end of a row: statements that look for it, and records. -/
structure RowEnd where
  test : List Stmt
  records : List Record

/-- What the loop over a vector layer does about the end of its row: it stops there, or it leaves a warning
that the row is copied in full. -/
def rowEnd (n : Names) (s : Shape) (axis : Nat) (extent : Extent) : RowEnd :=
  if isOpenRow axis extent then
    if s.element.isFloating then { test := [stopAtNaN n s axis], records := [] }
    else { test := [], records := [unmarkedRowRecord n.base s axis] }
  else { test := [], records := [] }

/-- The end of a row is looked for if it is open and its values have a mark for it. -/
theorem rowEnd_test (n : Names) (s : Shape) (axis : Nat) (extent : Extent) :
    (rowEnd n s axis extent).test =
      if isOpenRow axis extent && s.element.isFloating then [stopAtNaN n s axis] else [] := by
  unfold rowEnd
  cases isOpenRow axis extent <;> cases s.element.isFloating <;> rfl

/-- A warning is left if the row is open and its values have no mark for its end. -/
theorem rowEnd_records (n : Names) (s : Shape) (axis : Nat) (extent : Extent) :
    (rowEnd n s axis extent).records =
      if s.element.isFloating then [] else if isOpenRow axis extent then [unmarkedRowRecord n.base s axis] else [] := by
  unfold rowEnd
  cases isOpenRow axis extent <;> cases s.element.isFloating <;> rfl

/-- Calls a method of a vector layer. -/
def callOn (layer : Expr) (method : String) (args : List Expr) : Stmt :=
  .eval (.method layer false method args)

/-- What the loop over a vector layer does with its vector before its inner loop: a layer between the
outermost and the innermost one gains an element. -/
def growth (n : Names) (s : Shape) (axis : Nat) : List Stmt :=
  if 0 < axis ∧ axis + 1 < s.vectorRank then
    [callOn ((Expr.name n.value).subscripts (n.indices 0 axis)) "emplace_back" []]
  else []

/-- What the loop over a vector layer does before its inner loop. -/
def layerStart (n : Names) (s : Shape) (axis : Nat) (extent : Extent) : List Stmt :=
  (rowEnd n s axis extent).test ++ growth n s axis

/-- What a loop over a layer does first is the test for the end of its row and the growth of its vector. -/
theorem forall_mem_layerStart {P : Stmt → Prop} {n : Names} {s : Shape} {axis : Nat} (extent : Extent)
    (hstop : P (stopAtNaN n s axis))
    (hgrow : P (callOn ((Expr.name n.value).subscripts (n.indices 0 axis)) "emplace_back" [])) :
    ∀ stmt ∈ layerStart n s axis extent, P stmt := by
  unfold layerStart growth
  rw [List.forall_mem_append, rowEnd_test]
  constructor
  · split
    · exact List.forall_mem_singleton.mpr hstop
    · exact List.forall_mem_nil _
  · split
    · exact List.forall_mem_singleton.mpr hgrow
    · exact List.forall_mem_nil _

/-- A loop over a vector layer, with the records that it leaves when it is built. -/
structure LayerLoop where
  loop : Loop
  records : List Record

/-- The loops over the vector layers, with their records. -/
def layers (n : Names) (s : Shape) : List LayerLoop :=
  s.vectors.zipIdx.map fun (extent, axis) =>
    { loop := n.loopOver axis (layerStart n s axis extent), records := (rowEnd n s axis extent).records }

/-- The loops over the vector layers. -/
def layerLoops (n : Names) (s : Shape) : List Loop := (layers n s).map LayerLoop.loop

/-- There is a loop for each vector layer. -/
theorem layerLoops_eq (n : Names) (s : Shape) :
    layerLoops n s = s.vectors.zipIdx.map fun (extent, axis) => n.loopOver axis (layerStart n s axis extent) :=
  List.map_map

/-- What holds for the loop over any layer holds for all of them. -/
theorem forall_mem_layerLoops {P : Loop → Prop} {n : Names} {s : Shape}
    (h : ∀ axis extent, P (n.loopOver axis (layerStart n s axis extent))) : ∀ l ∈ layerLoops n s, P l := by
  rw [layerLoops_eq]
  exact List.forall_mem_map.mpr fun layer _ => h layer.2 layer.1

/-- Declares the outermost vector. -/
def declareVectors (n : Names) (s : Shape) : Stmt :=
  if 1 < s.vectorRank then .construct s.declaredType n.value [n.sizeOf 0] else .plain s.declaredType n.value

/-- Appends to the innermost vector layer. -/
def append (n : Names) (s : Shape) (item : Expr) : Stmt :=
  callOn ((Expr.name n.value).subscripts (n.indices 0 (s.vectorRank - 1))) "push_back" [item]

/-- The extents of a block, for a container that takes them at run time. -/
def declareExtents (n : Names) (s : Shape) (name : String) : List Stmt :=
  if s.element.container.isFixed then []
  else [.constantArray "int" name (n.sizes s.vectorRank s.blockRank)]

/-- Allocates a block. -/
def declareBlock (s : Shape) (name extents : String) : Stmt :=
  if s.element.container.isFixed then .plain s.blockType name
  else .construct "Mat" name [.count s.blockRank, .name extents, .name s.element.matrixConstant]

/-- Copies one element of the tensor into a block. -/
def fillElement (n : Names) (s : Shape) (block : Expr) : List Stmt :=
  (elementPairs n s block n.dataIn).map fun (element, datum) => .assign element datum

/-- Copies the tensor's part of a block into it. -/
def fillBlock (n : Names) (s : Shape) (block : String) : List Stmt :=
  nested (n.plainLoops s.vectorRank s.blockRank) (fillElement n s (.name block))

/-- Declares the value and fills it. -/
def valueBody (n : Names) (s : Shape) : List Stmt :=
  match s.kind with
  | .scalar => [.define s.declaredType n.value (.callNamed n.dataIn (primitiveIndex n s))]
  | .vectorOfPrimitive =>
    declareVectors n s :: nested (layerLoops n s) [append n s (.callNamed n.dataIn (primitiveIndex n s))]
  | .vectorOfMatrix =>
    declareVectors n s :: declareExtents n s n.blockShape ++
      nested (layerLoops n s)
        (declareBlock s n.block n.blockShape :: fillBlock n s n.block ++ [append n s (.name n.block)])
  | .matrix =>
    declareExtents n s n.shape ++ declareBlock s n.value n.shape :: fillBlock n s n.value

/-- The conversion of a tensor to a nested value. -/
def toValue (n : Names) (s : Shape) : Conversion :=
  { direction := .toValue
    sizes := tensorSizes n s
    body := valueBody n s
    extents := []
    emptyTest := none
    emptyExtents := [] }

end Conversion

end TensorBridge
