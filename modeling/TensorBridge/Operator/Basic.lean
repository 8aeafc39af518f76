import TensorBridge.Operator.AttrType
import TensorBridge.Shape.Reader
import TensorBridge.Text.Words

/-!
# Operators

An operator is a function of the user's together with the operands that it takes and gives, its
attributes, and the device that its kernel runs on. Ids order the arguments of the function; operands
and attributes share one space of ids and one of names.
-/

namespace TensorBridge

/-- A tensor operand. -/
structure Operand where
  id : Int
  name : String
  role : Role
  tokens : Value
  shape : Shape

/-- An attribute. -/
structure Attribute where
  id : Int
  name : String
  expression : Value
  type : AttrType

/-- An operator: its name, the function that does the work, its operands and attributes in the order of
their listing, and its device. -/
structure Operator where
  name : String
  function : String
  operands : List Operand
  attributes : List Attribute
  device : Value

/-- Reads an operand's shape. -/
def Operand.read (id : Int) (name : String) (role : Role) (tokens : Value) : Traced Operand := do
  let shape ← Shape.read tokens
  return { id, name, role, tokens, shape }

/-- Reads an attribute's type. -/
def Attribute.read (id : Int) (name : String) (expression : Value) : Except Error Attribute := do
  let type ← AttrType.ofExpression expression
  return { id, name, expression, type }

/-! ## Order by id -/

/-- Puts an item in front of the first one whose key is not less. -/
def insertBy {α : Type} (key : α → Int) (a : α) : List α → List α
  | [] => [a]
  | b :: rest => if key a ≤ key b then a :: b :: rest else b :: insertBy key a rest

/-- The items in the order of their keys; equal keys keep their order. -/
def sortBy {α : Type} (key : α → Int) : List α → List α
  | [] => []
  | a :: rest => insertBy key a (sortBy key rest)

/-- Inserting adds the item and nothing else. -/
theorem insertBy_perm {α : Type} (key : α → Int) (a : α) (l : List α) : (insertBy key a l).Perm (a :: l) := by
  induction l with
  | nil => exact List.Perm.refl _
  | cons b rest ih =>
    unfold insertBy
    split
    · exact List.Perm.refl _
    · exact (ih.cons b).trans (List.Perm.swap a b rest)

/-- Sorting keeps the items. -/
theorem sortBy_perm {α : Type} (key : α → Int) (l : List α) : (sortBy key l).Perm l := by
  induction l with
  | nil => exact List.Perm.refl _
  | cons a rest ih => exact (insertBy_perm key a _).trans (ih.cons a)

/-- Inserting into a row in order gives a row in order. -/
theorem pairwise_insertBy {α : Type} (key : α → Int) (a : α) {l : List α}
    (h : l.Pairwise fun x y => key x ≤ key y) : (insertBy key a l).Pairwise fun x y => key x ≤ key y := by
  induction l with
  | nil => simp [insertBy]
  | cons b rest ih =>
    obtain ⟨hb, hrest⟩ := List.pairwise_cons.mp h
    unfold insertBy
    split
    · next hab =>
      refine List.pairwise_cons.mpr ⟨fun x hx => ?_, h⟩
      rcases List.mem_cons.mp hx with rfl | hx
      · exact hab
      · exact Int.le_trans hab (hb x hx)
    · next hab =>
      refine List.pairwise_cons.mpr ⟨fun x hx => ?_, ih hrest⟩
      rcases List.mem_cons.mp ((insertBy_perm key a rest).mem_iff.mp hx) with rfl | hx
      · exact Int.le_of_lt (Int.not_le.mp hab)
      · exact hb x hx

/-- Sorted items are in the order of their keys. -/
theorem pairwise_sortBy {α : Type} (key : α → Int) (l : List α) :
    (sortBy key l).Pairwise fun x y => key x ≤ key y := by
  induction l with
  | nil => exact List.Pairwise.nil
  | cons a rest ih => exact pairwise_insertBy key a ih

namespace Operator

/-- The device of a kernel unless a specification names another one. -/
def defaultDevice : String := "DEVICE_CPU"

/-- The operands that are read from input tensors, by id. -/
def inputs (o : Operator) : List Operand := sortBy Operand.id (o.operands.filter (·.role.isInput))

/-- The operands that are written to output tensors, by id. -/
def outputs (o : Operator) : List Operand := sortBy Operand.id (o.operands.filter (·.role.isOutput))

/-- The operands that are only written, by id. -/
def pureOutputs (o : Operator) : List Operand := (sortBy Operand.id o.operands).filter (·.role == .output)

/-- The attributes by id. -/
def sortedAttributes (o : Operator) : List Attribute := sortBy Attribute.id o.attributes

/-! ## Validity -/

/-- The first item whose id or name one of the earlier ones has; an id counts before a name. -/
def clash? (earlier : List (Int × String)) : List (Int × String) → Option SpecFlaw
  | [] => none
  | (id, name) :: rest =>
    match earlier.lookup id with
    | some first => some (.repeatedId id first name)
    | none =>
      if earlier.any (·.2 == name) then some (.repeatedName name) else clash? ((id, name) :: earlier) rest

/-- The ids and names of the operands, then of the attributes. -/
def items (o : Operator) : List (Int × String) :=
  o.operands.map (fun p => (p.id, p.name)) ++ o.attributes.map (fun a => (a.id, a.name))

/-- What is wrong with an operator, if anything. -/
def flaw? (o : Operator) : Option SpecFlaw :=
  match o.name.toList with
  | [] => some .operatorUnnamed
  | first :: _ =>
    if !isUppercase first then some (.operatorNotCapital o.name)
    else if o.function.isEmpty then some .functionUnnamed
    else clash? [] o.items

/-- An operator, unless there is something wrong with it. A flaw is refused with a message, and the check
breaks off where the message cannot be written. -/
def validate (o : Operator) : Except Error Operator :=
  match o.flaw? with
  | some flaw => if flaw.hasMessage then refuse (.spec flaw) else .error (.fault .numeralTooLong)
  | none => .ok o

/-! ## As data -/

/-- The entry of an operand in a specification. -/
def operandEntry (p : Operand) : String × Value :=
  (p.name, .object [("id", .int p.id), ((SpecSection.operands p.role).describedBy, p.tokens)])

/-- The entry of an attribute in a specification. -/
def attributeEntry (a : Attribute) : String × Value :=
  (a.name, .object [("id", .int a.id), (SpecSection.attributes.describedBy, a.expression)])

/-- An operator as the data of a specification. -/
def toValue (o : Operator) : Value :=
  .object <|
    [("opName", .string o.name), ("fnName", .string o.function), ("device", o.device)] ++
      Role.all.map (fun role => (role.name, .object ((o.operands.filter (·.role == role)).map operandEntry))) ++
      [(SpecSection.attributes.name, .object (o.attributes.map attributeEntry))]

end Operator

/-- The name under which an operand's input side is registered: an operand that is also an output needs
its own name for that. -/
def Operand.inputName (p : Operand) : String :=
  if p.role = .inputOutput then p.name ++ "_in" else p.name

end TensorBridge
