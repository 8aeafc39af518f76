import TensorBridge.Error
import TensorBridge.Text.DecimalDigit
import TensorBridge.Text.Start

/-!
# Attribute types

An attribute is described by an expression: a type, an equals sign, and a default value of that type.
Blanks around the value are passed over, and whatever follows a line break after the value's first
character is not part of the expression.
-/

namespace TensorBridge

/-- The type of an attribute with its default value as written; the default of a string keeps its
quotes. -/
structure AttrType where
  kind : AttrKind
  default : String
deriving DecidableEq, Repr

namespace AttrType

/-- An attribute type as an expression. -/
def text (a : AttrType) : String := a.kind.name ++ " = " ++ a.default

/-- Whether a value is one quoted text: it starts and ends with the same quote. -/
def isQuotedText (cs : List Char) : Bool :=
  match cs with
  | first :: rest => (first == '\x27' || first == '\x22') && rest.getLast? == some first
  | [] => false

/-- Whether a value is a whole number: zero, or a numeral without leading zero behind an optional minus.
-/
def isWholeNumber (cs : List Char) : Bool :=
  match cs with
  | '-' :: rest => isPositiveNumeral rest
  | _ => cs == ['0'] || isPositiveNumeral cs

/-- Whether a value is a number without sign: a whole part without leading zero, which may be left out
in front of a fraction, and an optional fraction. -/
def isUnsignedNumber (cs : List Char) : Bool :=
  let whole := cs.takeWhile (· ≠ '.')
  let isWhole := whole == ['0'] || isPositiveNumeral whole
  match cs.dropWhile (· ≠ '.') with
  | [] => isWhole
  | _ :: fraction => (isWhole || whole.isEmpty) && !fraction.isEmpty && fraction.all isDecimalDigit

/-- Whether a value is a number: one without sign behind an optional minus. -/
def isNumber (cs : List Char) : Bool :=
  match cs with
  | '-' :: rest => isUnsignedNumber rest
  | _ => isUnsignedNumber cs

/-- The words for the two truth values. -/
def truthWords : List String := ["0", "1", "false", "true", "False", "True"]

/-- Whether a value is a literal of a type. -/
def isLiteral (kind : AttrKind) (value : String) : Bool :=
  match kind with
  | .string => isQuotedText value.toList
  | .int => isWholeNumber value.toList
  | .float => isNumber value.toList
  | .bool => truthWords.contains value

/-- The text without the spaces in front. -/
def dropSpaces (cs : List Char) : List Char := cs.dropWhile (· = ' ')

/-- The type and the value of an expression, the value with the blanks around it. -/
def split? (cs : List Char) : Option (AttrKind × List Char) := do
  let (kind, rest) ← AttrKind.all.findSome? fun kind => (afterStart? kind.name.toList cs).map (kind, ·)
  match dropSpaces rest with
  | '=' :: rest =>
    match dropSpaces rest with
    | first :: rest => some (kind, first :: rest.takeWhile (· ≠ '\n'))
    | [] => none
  | _ => none

/-- The attribute type that an expression describes. -/
def ofExpression (expression : Value) : Except Error AttrType :=
  match expression with
  | .string s =>
    match split? s.toList with
    | none => refuse (.attributeFormat expression)
    | some (kind, value) =>
      let default := String.ofList (trimChars value)
      if isLiteral kind default then .ok ⟨kind, default⟩ else refuse (.attributeDefault kind default s)
  | _ => refuse (.attributeFormat expression)

end AttrType

end TensorBridge
