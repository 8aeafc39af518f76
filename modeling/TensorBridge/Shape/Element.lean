import TensorBridge.Shape.Dim

/-!
# Elements

What a shape holds at its innermost axis: a value of a primitive type, or a matrix element of some depth
and one to four channels in one of three containers. The canonical text of an element is its token
without the container. A token may end in one line break, which stays in the canonical text and in the
name of a primitive type; no table of type names knows such a name.
-/

namespace TensorBridge

/-- The container that holds the block axes of a shape. -/
inductive Container
  | mat
  | matx
  | vec
deriving DecidableEq, Repr

namespace Container

/-- The containers. -/
def all : List Container := [.mat, .matx, .vec]

/-- The C++ name of a container. -/
def name : Container → String
  | .mat => "Mat"
  | .matx => "Matx"
  | .vec => "Vec"

/-- The container of a name. -/
def ofName? (name : String) : Option Container := all.find? (·.name == name)

/-- Whether the size of a container is part of its type. -/
def isFixed (container : Container) : Bool := container != .mat

/-- Access to one element of a container: what follows the container's name. -/
def access (container : Container) (index : List String) (elementType : String) : String :=
  match container with
  | .mat => ".at<" ++ elementType ++ ">(" ++ commaList index ++ ")"
  | .matx => "(" ++ commaList index ++ ")"
  | .vec => "[" ++ commaList index ++ "]"

/-- A container is found by its name. -/
theorem ofName?_name (container : Container) : ofName? container.name = some container := by
  cases container <;> rfl

end Container

/-- The innermost part of a shape. A matrix element has its number of channels, less one, if the token
gives it; `endsLine` says whether the token ends in a line break. -/
inductive Element
  | primitive (type : Primitive) (endsLine : Bool)
  | matrix (depth : Depth) (written : Option (Fin 4)) (container : Container) (endsLine : Bool)
deriving DecidableEq, Repr

namespace Element

/-- The line break at the end of a token, if it has one. -/
def lineEnd (endsLine : Bool) : String := if endsLine then "\n" else ""

/-- The text of an element without its container. -/
def canonical : Element → String
  | .primitive type endsLine => type.name ++ lineEnd endsLine
  | .matrix depth written _ endsLine =>
    let channels :=
      match written with
      | none => ""
      | some k => "C" ++ toString (k.val + 1)
    depth.matrixType ++ channels ++ lineEnd endsLine

/-- Whether an element is one of a matrix. -/
def isMatrix : Element → Bool
  | .primitive _ _ => false
  | .matrix _ _ _ _ => true

/-- The number of channels: one unless the token says otherwise. -/
def channels : Element → Nat
  | .primitive _ _ => 1
  | .matrix _ none _ _ => 1
  | .matrix _ (some k) _ _ => k.val + 1

/-- The number of tensor axes for the channels: one if there are several channels. -/
def channelAxes (e : Element) : Nat := if 1 < e.channels then 1 else 0

/-- The depth of a matrix element. -/
def depth? : Element → Option Depth
  | .primitive _ _ => none
  | .matrix depth _ _ _ => some depth

/-- The type name of a primitive value. -/
def typeName? : Element → Option String
  | .primitive type endsLine => some (type.name ++ lineEnd endsLine)
  | .matrix _ _ _ _ => none

/-- The container of the block axes. -/
def container : Element → Container
  | .primitive _ _ => .mat
  | .matrix _ _ container _ => container

/-- The C++ type of one channel of a value. -/
def scalar : Element → String
  | .primitive type endsLine => type.name ++ lineEnd endsLine
  | .matrix depth _ _ _ => depth.scalar

/-- The C++ type of a value: its channels together. -/
def valueType (e : Element) : String :=
  if 1 < e.channels then "Vec<" ++ e.scalar ++ ", " ++ toString e.channels ++ ">" else e.scalar

/-- Whether the channels of a value are floating-point numbers. -/
def isFloating : Element → Bool
  | .primitive type endsLine => type.depth.isFloating && !endsLine
  | .matrix depth _ _ _ => depth.isFloating

/-- The depth of an element. A primitive type is looked up by its name, and a name that ends in a line
break is in no table. -/
def findDepth : Element → Except Error Depth
  | .primitive type false => .ok type.depth
  | .primitive type true => refuse (.unsupportedType .primitive (.string (type.name ++ lineEnd true)))
  | .matrix depth _ _ _ => .ok depth

/-- The C++ type of one value of the tensor. -/
def tensorScalar (e : Element) : Except Error String := e.findDepth.map Depth.scalar

/-- The data type that the tensor is registered with. -/
def tensorType (e : Element) : Except Error String := e.findDepth.map Depth.dataType

/-- The type constant that a matrix of a matrix element is made with. -/
def matrixConstant (e : Element) : String := e.canonical

/-- The matrix type constant of any element. -/
def matrixType (e : Element) : Except Error String :=
  match e with
  | .primitive _ _ => e.findDepth.map Depth.matrixType
  | .matrix _ _ _ _ => .ok e.matrixConstant

/-- Access to one element of the element's container. -/
def access (e : Element) (index : List String) : String :=
  e.container.access index e.valueType

/-! ## Reading -/

/-- The parts of a matrix element's text: the depth's code and the numeral of the channels. -/
def splitMatrixText (cs : List Char) : Option (List Char × Option (List Char)) := do
  let rest ← afterStart? ['C', 'V', '_'] cs
  let bits := rest.takeWhile isDecimalDigit
  let sign :: rest := rest.dropWhile isDecimalDigit | none
  if !isPositiveNumeral bits || !(sign == 'U' || sign == 'S' || sign == 'F') then none
  else
    match rest with
    | [] => some (bits ++ [sign], none)
    | 'C' :: numeral => if isPositiveNumeral numeral then some (bits ++ [sign], some numeral) else none
    | _ => none

/-- The number of channels that a numeral gives, less one; `none` if it is not given. -/
def readChannels (token : Value) : Option (List Char) → Except Error (Option (Fin 4))
  | none => .ok none
  | some numeral =>
    if maxNumeralDigits < numeral.length then .error (.fault .numeralTooLong)
    else
      let count := numeralValue numeral
      if h : count - 1 < maxChannels then .ok (some ⟨count - 1, h⟩) else refuse (.tooManyChannels count token)

/-- The container that a suffix names; none means a matrix. -/
def readContainer (token : Value) (suffix : List Char) : Except Error Container :=
  if suffix.isEmpty then .ok .mat
  else
    match Container.ofName? (String.ofList suffix) with
    | some container => .ok container
    | none => refuse (.elementFormat token)

/-- Reads the text of a matrix element: depth, channels, and after a colon the container. -/
def readMatrix (token : Value) (cs : List Char) : Except Error Element := do
  let (body, endsLine) := splitFinalBreak (cs.takeWhile (· ≠ ':'))
  match splitMatrixText body with
  | none => refuse (.elementFormat token)
  | some (code, numeral) =>
    let written ← readChannels token numeral
    match Depth.ofCode? (String.ofList code) with
    | none => refuse (.unknownDepth (String.ofList code) token)
    | some depth =>
      let container ← readContainer token ((cs.dropWhile (· ≠ ':')).drop 1)
      let element := Element.matrix depth written container endsLine
      if container.isFixed && 1 < element.channels then refuse (.fixedWithChannels token) else return element

/-- Reads the name of a primitive type. -/
def readPrimitive (token : Value) (cs : List Char) : Except Error Element :=
  let (body, endsLine) := splitFinalBreak cs
  match Primitive.ofName? (String.ofList body) with
  | some type => .ok (.primitive type endsLine)
  | none => refuse (.elementFormat token)

/-- The element that a token describes. -/
def ofToken (token : Value) : Except Error Element :=
  match token with
  | .string s =>
    let cs := s.toList
    if (afterStart? ['C', 'V'] cs).isSome then readMatrix token cs else readPrimitive token cs
  | _ => refuse (.elementFormat token)

end Element

end TensorBridge
