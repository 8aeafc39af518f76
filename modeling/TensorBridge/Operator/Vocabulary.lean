/-!
# The words of an operator specification

The fixed choices of a specification: how an operand travels, which section lists it, and the four types
that an attribute may have.
-/

namespace TensorBridge

/-- How an operand travels between the kernel and the user's function. -/
inductive Role
  | input
  | output
  | inputOutput
deriving DecidableEq, Repr

namespace Role

/-- The roles in the order of their sections. -/
def all : List Role := [.input, .output, .inputOutput]

/-- The section of a specification that lists the operands of a role. -/
def name : Role → String
  | .input => "inputs"
  | .output => "outputs"
  | .inputOutput => "inputoutputs"

/-- The role of a section's name. -/
def ofName? (name : String) : Option Role :=
  all.find? (·.name == name)

/-- Whether the kernel reads the operand from an input tensor. -/
def isInput (role : Role) : Bool := role != .output

/-- Whether the kernel writes the operand to an output tensor. -/
def isOutput (role : Role) : Bool := role != .input

end Role

/-- A section of a specification with named entries. -/
inductive SpecSection
  | operands (role : Role)
  | attributes
deriving DecidableEq, Repr

namespace SpecSection

/-- The name of a section. -/
def name : SpecSection → String
  | .operands role => role.name
  | .attributes => "attributes"

/-- The field of an entry that describes it, beside its id. -/
def describedBy : SpecSection → String
  | .operands _ => "shape"
  | .attributes => "type"

end SpecSection

/-- The type of an attribute. -/
inductive AttrKind
  | string
  | int
  | float
  | bool
deriving DecidableEq, Repr

namespace AttrKind

/-- The types in the order of their listing. -/
def all : List AttrKind := [.string, .int, .float, .bool]

/-- The name of a type, in a specification as in the kernel. -/
def name : AttrKind → String
  | .string => "string"
  | .int => "int"
  | .float => "float"
  | .bool => "bool"

end AttrKind

end TensorBridge
