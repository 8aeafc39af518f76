import TensorBridge.Shape.Scalar
import TensorBridge.Text.DecimalDigit
import TensorBridge.Text.Start

/-!
# Dimensions

One axis of a shape: a layer of vectors or an axis of the block inside, with its extent if that is
known. A dimension token is `none` or a positive number, with `vector:` in front for a vector layer; a
number may also be given as such. One line break at the end of a token is passed over.
-/

namespace TensorBridge

/-- The number of positions along an axis, if it is known before the program runs. -/
abbrev Extent : Type := Option Nat

/-- One axis of a shape. -/
inductive Dim
  | vector (extent : Extent)
  | block (extent : Extent)
deriving DecidableEq, Repr

namespace Dim

/-- The extent of an axis. -/
def extent : Dim → Extent
  | .vector e => e
  | .block e => e

/-- Whether an axis is a layer of vectors. -/
def isVector : Dim → Bool
  | .vector _ => true
  | .block _ => false

/-- Whether the extent of an axis is known only at run time. -/
def isDynamic (d : Dim) : Bool := d.extent.isNone

end Dim

/-- An extent as a token: `none` where it is unknown. -/
def extentText : Extent → String
  | none => "none"
  | some n => toString n

/-- A dimension as a token. -/
def Dim.text : Dim → String
  | .vector e => "vector:" ++ extentText e
  | .block e => extentText e

/-- The container that an axis belongs to. -/
def Dim.containerName : Dim → String
  | .vector _ => "vector"
  | .block _ => "Mat"

/-- What a text says about an extent. -/
inductive ExtentReading
  | extent (e : Extent)
  | zero
  | tooLong
  | none
deriving DecidableEq, Repr

/-- Reads the text of an extent: `none`, or a numeral without leading zero. -/
def readExtent (cs : List Char) : ExtentReading :=
  if cs = ['n', 'o', 'n', 'e'] then .extent none
  else if cs = ['0'] then .zero
  else if isPositiveNumeral cs then
    if maxNumeralDigits < cs.length then .tooLong else .extent (some (numeralValue cs))
  else .none

/-- Reads the text of a dimension: the axis's layer and what is said about its extent. -/
def readDim (cs : List Char) : (Extent → Dim) × ExtentReading :=
  let body := (splitFinalBreak cs).1
  match afterStart? ['v', 'e', 'c', 't', 'o', 'r', ':'] body with
  | some rest => (.vector, readExtent rest)
  | none => (.block, readExtent body)

/-- The dimension that a token describes: a text or a whole number. -/
def Dim.ofToken (token : Value) : Except Error Dim :=
  let text? : Option (List Char) :=
    match token with
    | .string s => some s.toList
    | .int n => some (toString n).toList
    | _ => none
  match text?.map readDim with
  | some (dim, .extent e) => .ok (dim e)
  | some (_, .zero) => refuse (.dimensionZero token)
  | some (_, .tooLong) => .error (.fault .numeralTooLong)
  | _ => refuse (.dimensionFormat token)

end TensorBridge
