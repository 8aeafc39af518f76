import TensorBridge.Number.Double

/-!
# Values of a data file

What a specification file can hold: the six kinds of JSON value, with whole and fractional numbers told
apart. The fields of an object stay in the order of their first appearance; a name occurs once.
-/

namespace TensorBridge

/-- A value of a data file. -/
inductive Value
  | null
  | bool (b : Bool)
  | int (n : Int)
  | float (x : Double)
  | string (s : String)
  | array (items : List Value)
  | object (fields : List (String × Value))

namespace Value

/-- Values that count as left out where a section or a setting may be absent: null, false, the zeros,
and everything empty. -/
def isVoid : Value → Bool
  | .null => true
  | .bool b => !b
  | .int n => n == 0
  | .float x => x.isZero
  | .string s => s.isEmpty
  | .array items => items.isEmpty
  | .object fields => fields.isEmpty

/-- The value of a field. -/
def field? (name : String) (fields : List (String × Value)) : Option Value :=
  fields.lookup name

/-- The value of a field, unless it is absent or counts as left out. -/
def given? (name : String) (fields : List (String × Value)) : Option Value :=
  (field? name fields).filter (!·.isVoid)

/-- Sets a field: in its old place if the name is there, else at the end. -/
def setField (name : String) (value : Value) : List (String × Value) → List (String × Value)
  | [] => [(name, value)]
  | (other, old) :: rest =>
    if other = name then (name, value) :: rest else (other, old) :: setField name value rest

/-- A field that is set has the new value. -/
theorem field?_setField_self (name : String) (value : Value) (fields : List (String × Value)) :
    field? name (setField name value fields) = some value := by
  unfold field?
  induction fields with
  | nil => simp [setField]
  | cons entry rest ih =>
    obtain ⟨other, old⟩ := entry
    unfold setField
    split
    · simp
    · next h => simp [List.lookup_cons, beq_eq_false_iff_ne.mpr (Ne.symm h), ih]

/-- Setting a field leaves the others. -/
theorem field?_setField_of_ne {name other : String} (h : other ≠ name) (value : Value)
    (fields : List (String × Value)) : field? other (setField name value fields) = field? other fields := by
  unfold field?
  induction fields with
  | nil => simp [setField, List.lookup_cons, beq_eq_false_iff_ne.mpr h]
  | cons entry rest ih =>
    obtain ⟨first, old⟩ := entry
    unfold setField
    split
    · next hfirst => subst hfirst; simp [List.lookup_cons, beq_eq_false_iff_ne.mpr h]
    · simp only [List.lookup_cons, ih]

end Value

end TensorBridge
