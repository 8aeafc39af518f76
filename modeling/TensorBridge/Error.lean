import TensorBridge.Operator.Vocabulary
import TensorBridge.Value.Display
import TensorBridge.Value.Reader

/-!
# Errors

Everything that can go wrong, by cause. A cause carries what its message names and the value that it
blames. A refusal is an answer about a shape, an attribute or a specification and belongs to a kind of
refusal; a fault comes from outside that vocabulary, such as a numeral beyond every bound or a file in
the way.
-/

namespace TensorBridge

/-! ## Refusals -/

/-- Kinds of refusal, from the general one down. -/
inductive RefusalKind
  | general
  | shape
  | dimensionFormat
  | dimensionSize
  | element
  | depth
  | channelCount
  | container
  | structural
  | unsupportedType
  | attribute
  | specification
deriving DecidableEq, Repr

namespace RefusalKind

/-- The kinds. -/
def all : List RefusalKind :=
  [.general, .shape, .dimensionFormat, .dimensionSize, .element, .depth, .channelCount, .container, .structural,
    .unsupportedType, .attribute, .specification]

/-- The next wider kind. -/
def wider? : RefusalKind → Option RefusalKind
  | .general => none
  | .shape => some .general
  | .dimensionFormat => some .shape
  | .dimensionSize => some .shape
  | .element => some .shape
  | .depth => some .element
  | .channelCount => some .element
  | .container => some .element
  | .structural => some .shape
  | .unsupportedType => some .general
  | .attribute => some .general
  | .specification => some .general

end RefusalKind

/-- The tables of type names that a look-up can miss. -/
inductive Vocabulary
  | depth
  | scalar
  | primitive
deriving DecidableEq, Repr

/-- What a table of type names holds. -/
def Vocabulary.description : Vocabulary → String
  | .depth => "OpenCV depth"
  | .scalar => "C++ scalar type"
  | .primitive => "primitive type"

/-- What is wrong with the tokens of a shape as a whole. -/
inductive ShapeFlaw
  | notAList
  | noTokens
  | rankTooHigh (rank : Nat)
  | blockBeforeVector
  | scalarOfMatrixType
  | blockOfPrimitive
  | vectorOfMatrixType
  | fixedOfUnknownSize
  | vecOfSeveralAxes
deriving DecidableEq, Repr

/-- The greatest rank of a tensor. -/
def maxRank : Nat := 254

/-- The greatest number of channels of an element. -/
def maxChannels : Nat := 4

/-- The message about a flaw of a shape. -/
def ShapeFlaw.message : ShapeFlaw → String
  | .notAList => "Invalid arguments: no shape array found."
  | .noTokens => "Invalid shape format: empty shape array."
  | .rankTooHigh rank => "Invalid shape format: rank " ++ toString rank ++ " exceeds " ++ toString maxRank
  | .blockBeforeVector => "Invalid shape format: Mat of vector or vector of Mat of vector is not allowed"
  | .scalarOfMatrixType => "Invalid shape format: scalar of OpenCV type is not allowed"
  | .blockOfPrimitive => "Invalid shape format: Mat of primary type is not allowed"
  | .vectorOfMatrixType => "Invalid shape format: vector of OpenCV type is not allowed"
  | .fixedOfUnknownSize => "Invalid shape format: dynamic dimension size is not allowed for static Mat type"
  | .vecOfSeveralAxes => "Invalid shape format: Vec type should be one-dimensional"

/-- Why a file could not be used. -/
inductive FileFault
  | missing
  | exists
  | notDirectory
  | isDirectory
  | nameTooLong
deriving DecidableEq, Repr

/-- The system's text for a file fault: its number and its description. -/
def FileFault.description : FileFault → String
  | .missing => "[Errno 2] No such file or directory"
  | .exists => "[Errno 17] File exists"
  | .notDirectory => "[Errno 20] Not a directory"
  | .isDirectory => "[Errno 21] Is a directory"
  | .nameTooLong => "[Errno 36] File name too long"

/-- What is wrong with an operator specification. -/
inductive SpecFlaw
  | unreadable (path : String) (fault : FileFault)
  | malformed (path : String) (error : Value.SyntaxError)
  | notAnObject (data : Value)
  | sectionNotAnObject (place : SpecSection)
  | entryNotAnObject (place : SpecSection) (writtenName : String)
  | entryWithoutId (place : SpecSection) (name : String) (id : Option Value)
  | entryUndescribed (place : SpecSection) (name : String)
  | operatorUnnamed
  | operatorNotCapital (name : String)
  | functionUnnamed
  | repeatedId (id : Int) (first second : String)
  | repeatedName (name : String)

/-- Refusals of a shape, an attribute or a specification. -/
inductive Refusal
  | dimensionFormat (token : Value)
  | dimensionZero (token : Value)
  | elementFormat (token : Value)
  | unknownDepth (depth : String) (token : Value)
  | tooManyChannels (count : Nat) (token : Value)
  | fixedWithChannels (token : Value)
  | shape (flaw : ShapeFlaw) (tokens : Value)
  | unsupportedType (table : Vocabulary) (key : Value)
  | attributeFormat (expression : Value)
  | attributeDefault (kind : AttrKind) (default expression : String)
  | spec (flaw : SpecFlaw)

/-- The message about a flaw of a specification. -/
def SpecFlaw.message : SpecFlaw → String
  | .unreadable path fault =>
    "Cannot read spec file " ++ path ++ ": " ++ fault.description ++ ": " ++ quoted path
  | .malformed path error => "Invalid JSON in " ++ path ++ ": " ++ error.message
  | .notAnObject _ => "An operator spec must be a JSON object"
  | .sectionNotAnObject place => "'" ++ place.name ++ "' must be an object mapping names to entries"
  | .entryNotAnObject place writtenName => place.name ++ "." ++ trim writtenName ++ " must be an object"
  | .entryWithoutId place name _ => place.name ++ "." ++ name ++ " needs an integer 'id'"
  | .entryUndescribed place name => place.name ++ "." ++ name ++ " has no '" ++ place.describedBy ++ "'"
  | .operatorUnnamed => "OpSpec.op_name cannot be empty"
  | .operatorNotCapital name =>
    "OpSpec.op_name should be PascalCase, got '" ++ name ++ "'. Example: 'DetectEdges'"
  | .functionUnnamed => "OpSpec.fn_name cannot be empty"
  | .repeatedId id first second =>
    "Duplicate id " ++ toString id ++ ": '" ++ first ++ "' and '" ++ second ++ "'"
  | .repeatedName name => "Duplicate name '" ++ name ++ "'"

/-- Whether the message about a flaw of a specification can be written. It may hold an id, and a number of
more digits than a numeral may have is not written. -/
def SpecFlaw.hasMessage : SpecFlaw → Bool
  | .repeatedId id _ _ => (Nat.toDigits 10 id.natAbs).length ≤ maxNumeralDigits
  | _ => true

/-- The value that a flaw of a specification blames. -/
def SpecFlaw.token : SpecFlaw → Value
  | .unreadable path _ => .string path
  | .malformed path _ => .string path
  | .notAnObject data => data
  | .sectionNotAnObject place => .string place.name
  | .entryNotAnObject _ writtenName => .string writtenName
  | .entryWithoutId _ _ id => id.getD .null
  | .entryUndescribed _ name => .string name
  | .operatorUnnamed => .null
  | .operatorNotCapital name => .string name
  | .functionUnnamed => .null
  | .repeatedId id _ _ => .int id
  | .repeatedName name => .string name

namespace Refusal

/-- The kind of a refusal. -/
def kind : Refusal → RefusalKind
  | .dimensionFormat _ => .dimensionFormat
  | .dimensionZero _ => .dimensionSize
  | .elementFormat _ => .element
  | .unknownDepth _ _ => .depth
  | .tooManyChannels _ _ => .channelCount
  | .fixedWithChannels _ => .container
  | .shape _ _ => .structural
  | .unsupportedType _ _ => .unsupportedType
  | .attributeFormat _ => .attribute
  | .attributeDefault _ _ _ => .attribute
  | .spec _ => .specification

/-- The message of a refusal. -/
def message : Refusal → String
  | .dimensionFormat token => "Invalid dimensional descriptor format: " ++ token.display
  | .dimensionZero _ => "Invalid dimensional descriptor format: dimension should > 0"
  | .elementFormat token => "Invalid data descriptor format: " ++ token.display
  | .unknownDepth depth token => "Invalid Data Cell format of depth: " ++ depth ++ " from " ++ token.display
  | .tooManyChannels count token =>
    "Invalid Data Cell format of channel: expect number between 1, " ++ toString maxChannels ++ " but get " ++
      toString count ++ " from " ++ token.display
  | .fixedWithChannels _ => "Invalid data descriptor format: static Mat type does not support multichannels"
  | .shape flaw _ => flaw.message
  | .unsupportedType table key => "Unsupported " ++ table.description ++ ": " ++ key.display
  | .attributeFormat expression => "Invalid attribute type format: " ++ expression.display
  | .attributeDefault kind default expression =>
    "Invalid default value for " ++ kind.name ++ ": " ++ default ++ " from " ++ expression
  | .spec flaw => flaw.message

/-- The value that a refusal blames. -/
def token : Refusal → Value
  | .dimensionFormat token => token
  | .dimensionZero token => token
  | .elementFormat token => token
  | .unknownDepth _ token => token
  | .tooManyChannels _ token => token
  | .fixedWithChannels token => token
  | .shape _ tokens => tokens
  | .unsupportedType _ key => key
  | .attributeFormat expression => expression
  | .attributeDefault _ _ expression => .string expression
  | .spec flaw => flaw.token

end Refusal

/-! ## Faults -/

/-- Failures outside the vocabulary of refusals. The content of a file or an output is unencodable if it
holds one half of a surrogate pair, and a path is if it holds one that stands for no byte. -/
inductive Fault
  | numeralTooLong
  | nestedTooDeep
  | nameNotText
  | unknownLevel
  | levelNotAName
  | nullInPath
  | unencodable
  | file (fault : FileFault)
deriving DecidableEq, Repr

/-- Anything that ends a computation without a result. -/
inductive Error
  | refusal (refusal : Refusal)
  | fault (fault : Fault)

/-- Ends a computation with a refusal. -/
def refuse {α : Type} (refusal : Refusal) : Except Error α :=
  .error (.refusal refusal)

end TensorBridge
