import TensorBridge.Operator.Basic
import TensorBridge.Value.Reader

/-!
# Reading specifications

A specification is an object. Four of its sections list operands, by role, and attributes; each entry
has a whole number as its id and a description. The entries of a section are checked one after the other
before the first of their descriptions is read. Names of the operator and its function that are left out
come from a default.
-/

namespace TensorBridge

/-- An entry of a section: its name without the blanks around it, its id, and its fields. -/
structure SpecEntry where
  name : String
  id : Int
  fields : List (String × Value)

namespace SpecEntry

/-- Checks one entry. -/
def ofField (place : SpecSection) (field : String × Value) : Except Error SpecEntry :=
  match field.2 with
  | .object fields =>
    match Value.field? "id" fields with
    | some (.int id) => .ok ⟨trim field.1, id, fields⟩
    | other => refuse (.spec (.entryWithoutId place (trim field.1) other))
  | _ => refuse (.spec (.entryNotAnObject place field.1))

/-- Checks the entries of a section in order. -/
def ofFields (place : SpecSection) : List (String × Value) → Except Error (List SpecEntry)
  | [] => .ok []
  | field :: rest => do
    let entry ← ofField place field
    let entries ← ofFields place rest
    return entry :: entries

/-- The entries of a section; a section that is left out has none. -/
def inSection (place : SpecSection) (fields : List (String × Value)) : Except Error (List SpecEntry) :=
  match Value.given? place.name fields with
  | none => .ok []
  | some (.object entries) => ofFields place entries
  | some _ => refuse (.spec (.sectionNotAnObject place))

/-- The field that describes an entry. -/
def description (place : SpecSection) (entry : SpecEntry) : Except Error Value :=
  match Value.field? place.describedBy entry.fields with
  | some value => .ok value
  | none => refuse (.spec (.entryUndescribed place entry.name))

/-- Reads an operand. -/
def toOperand (role : Role) (entry : SpecEntry) : Traced Operand := do
  let tokens ← Traced.ofExcept (entry.description (.operands role))
  Operand.read entry.id entry.name role tokens

/-- Reads an attribute. -/
def toAttribute (entry : SpecEntry) : Traced Attribute :=
  Traced.ofExcept do
    let expression ← entry.description .attributes
    Attribute.read entry.id entry.name expression

end SpecEntry

namespace Operator

/-- Reads the operands of a role. -/
def readOperands (fields : List (String × Value)) (role : Role) : Traced (List Operand) := do
  let entries ← Traced.ofExcept (SpecEntry.inSection (.operands role) fields)
  Traced.forEach (SpecEntry.toOperand role) entries

/-- The name in a field, or a default where it is left out. -/
def nameIn (field : String) (default : String) (fields : List (String × Value)) : Except Error String :=
  match Value.given? field fields with
  | none => .ok default
  | some (.string name) => .ok name
  | some _ => .error (.fault .nameNotText)

/-- Reads the operator that the fields of a specification describe. -/
def readFields (fields : List (String × Value)) (defaultName : String) : Traced Operator := do
  let operands ← Traced.forEach (readOperands fields) Role.all
  let entries ← Traced.ofExcept (SpecEntry.inSection .attributes fields)
  let attributes ← Traced.forEach SpecEntry.toAttribute entries
  let name ← Traced.ofExcept (nameIn "opName" defaultName fields)
  let function ← Traced.ofExcept (nameIn "fnName" defaultName fields)
  Traced.ofExcept <| validate
    { name := pascalCase name
      function := snakeCase function
      operands := operands.flatten
      attributes
      device := (Value.given? "device" fields).getD (.string defaultDevice) }

/-- Reads the operator that a specification describes. -/
def read (data : Value) (defaultName : String) : Traced Operator :=
  match data with
  | .object fields => readFields fields defaultName
  | _ => Traced.ofExcept (refuse (.spec (.notAnObject data)))

end Operator

end TensorBridge
