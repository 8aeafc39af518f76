import TensorBridge.Log
import TensorBridge.Shape.Basic

/-!
# Reading shapes

A shape is written as a list of tokens: its dimensions, then its element. The vector layers come first.
A primitive value has no block around it, a matrix element has one, and a fixed container needs its
sizes, of which a `Vec` takes only one. The element is read first, then the dimensions in order, then
the whole is judged.
-/

namespace TensorBridge

/-- The dimensions of a list of tokens. -/
def Dim.ofTokens : List Value → Except Error (List Dim)
  | [] => .ok []
  | token :: rest => do
    let dim ← Dim.ofToken token
    let dims ← Dim.ofTokens rest
    return dim :: dims

namespace Shape

/-- What is wrong with dimensions around an element, if anything. The first flaw in the order of these
tests counts. -/
def flaw? (dims : List Dim) (element : Element) : Option ShapeFlaw :=
  let vectors := dims.takeWhile Dim.isVector
  let block := dims.dropWhile Dim.isVector
  let rank := dims.length + element.channelAxes
  if maxRank < rank then some (.rankTooHigh rank)
  else if block.any Dim.isVector then some .blockBeforeVector
  else if element.isMatrix then
    if block.isEmpty then some (if vectors.isEmpty then .scalarOfMatrixType else .vectorOfMatrixType)
    else if element.container.isFixed && block.any Dim.isDynamic then some .fixedOfUnknownSize
    else if element.container = .vec ∧ 1 < block.length then some .vecOfSeveralAxes
    else none
  else if block.isEmpty then none
  else some .blockOfPrimitive

/-- The shape of dimensions around an element. -/
def ofDims (dims : List Dim) (element : Element) : Shape :=
  { vectors := (dims.takeWhile Dim.isVector).map Dim.extent
    block := (dims.dropWhile Dim.isVector).map Dim.extent
    element := element }

/-- The shape that a list of tokens describes. -/
def ofTokens (tokens : List Value) : Except Error Shape :=
  match tokens.getLast? with
  | none => refuse (.shape .noTokens (.array tokens))
  | some last => do
    let element ← Element.ofToken last
    let dims ← Dim.ofTokens tokens.dropLast
    match flaw? dims element with
    | some flaw => refuse (.shape flaw (.array tokens))
    | none => return ofDims dims element

/-- The record of a shape that has been read. -/
def readRecord (tokens : List Value) (s : Shape) : Record :=
  { level := .debug
    source := .shapes
    message :=
      "classified " ++ (Value.array tokens).literal ++ " as " ++ s.kind.name ++ " (tensor rank " ++
        toString s.tensorRank ++ ", vector dims " ++ toString s.vectorRank ++ ", block dims " ++
        toString s.blockRank ++ ")" }

/-- Reads the shape that a value describes, which has to be a list of tokens; success leaves a record.
-/
def read (tokens : Value) : Traced Shape :=
  match tokens with
  | .array items => do
    let s ← Traced.ofExcept (ofTokens items)
    Traced.record [readRecord items s]
    return s
  | _ => Traced.ofExcept (refuse (.shape .notAList tokens))

end Shape

end TensorBridge
