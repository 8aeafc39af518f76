import TensorBridge.Error

/-!
# Scalar types

Three vocabularies name the type of one value: the depth codes of matrix elements, the scalar types of
C++, and the data types of tensors. The seven depths tie them together; a primitive type is known by its
depth.
-/

namespace TensorBridge

/-- The depth of a matrix element. -/
inductive Depth
  | u8
  | s8
  | u16
  | s16
  | s32
  | f32
  | f64
deriving DecidableEq, Repr

namespace Depth

/-- The depths in their usual order. -/
def all : List Depth := [.u8, .s8, .u16, .s16, .s32, .f32, .f64]

/-- The code of a depth: its bits, and whether it is unsigned, signed or floating. -/
def code : Depth → String
  | .u8 => "8U"
  | .s8 => "8S"
  | .u16 => "16U"
  | .s16 => "16S"
  | .s32 => "32S"
  | .f32 => "32F"
  | .f64 => "64F"

/-- The C++ type of a value. -/
def scalar : Depth → String
  | .u8 => "uint8_t"
  | .s8 => "int8_t"
  | .u16 => "uint16_t"
  | .s16 => "int16_t"
  | .s32 => "int32_t"
  | .f32 => "float"
  | .f64 => "double"

/-- The data type of a tensor of such values. -/
def dataType : Depth → String
  | .u8 => "uint8"
  | .s8 => "int8"
  | .u16 => "uint16"
  | .s16 => "int16"
  | .s32 => "int32"
  | .f32 => "float32"
  | .f64 => "float64"

/-- The matrix type constant of one channel. -/
def matrixType (depth : Depth) : String := "CV_" ++ depth.code

/-- Whether values of a depth are floating-point numbers, which have a NaN. -/
def isFloating : Depth → Bool
  | .f32 => true
  | .f64 => true
  | _ => false

/-- The depth of a code. -/
def ofCode? (code : String) : Option Depth := all.find? (·.code == code)

/-- The depth of a C++ type. -/
def ofScalar? (scalar : String) : Option Depth := all.find? (·.scalar == scalar)

/-- A depth is found by its code. -/
theorem ofCode?_code (depth : Depth) : ofCode? depth.code = some depth := by cases depth <;> rfl

/-- A depth is found by its C++ type. -/
theorem ofScalar?_scalar (depth : Depth) : ofScalar? depth.scalar = some depth := by cases depth <;> rfl

end Depth

/-- A primitive type. -/
inductive Primitive
  | char
  | int
  | float
  | double
deriving DecidableEq, Repr

namespace Primitive

/-- The primitive types in the order of their listing. -/
def all : List Primitive := [.char, .int, .float, .double]

/-- The C++ name of a primitive type. -/
def name : Primitive → String
  | .char => "char"
  | .int => "int"
  | .float => "float"
  | .double => "double"

/-- The depth of the matrix elements that hold such values; a `char` is signed. -/
def depth : Primitive → Depth
  | .char => .s8
  | .int => .s32
  | .float => .f32
  | .double => .f64

/-- The primitive type of a name. -/
def ofName? (name : String) : Option Primitive := all.find? (·.name == name)

/-- A primitive type is found by its name. -/
theorem ofName?_name (type : Primitive) : ofName? type.name = some type := by cases type <;> rfl

end Primitive

/-- Looks a name up in one of the tables; only a text can be in it. -/
def lookUp {α : Type} (table : Vocabulary) (find : String → Option α) (key : Value) : Except Error α :=
  let found :=
    match key with
    | .string name => find name
    | _ => none
  match found with
  | some a => .ok a
  | none => refuse (.unsupportedType table key)

/-- The depth that a code names. -/
def Depth.ofCode (code : Value) : Except Error Depth := lookUp .depth Depth.ofCode? code

/-- The depth that a C++ type names. -/
def Depth.ofScalar (scalar : Value) : Except Error Depth := lookUp .scalar Depth.ofScalar? scalar

/-- The depth that the name of a primitive type names. -/
def Depth.ofPrimitive (name : Value) : Except Error Depth :=
  (lookUp .primitive Primitive.ofName? name).map Primitive.depth

end TensorBridge
