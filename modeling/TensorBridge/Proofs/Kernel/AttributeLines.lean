import TensorBridge.Kernel.Fragment
import TensorBridge.Proofs.Cpp.Literals
import TensorBridge.Proofs.Operator.Expressions
import TensorBridge.Proofs.Text.NormalForms

/-!
# Registrations of attributes

The registration of an attribute puts its name, its type and its default value between double quotes as they are.
The C++ literal that comes of it has this text as its value exactly if none of its characters has a meaning of its
own between double quotes. Names in snake case and the defaults of numbers and truth values are of that kind; the
default of a string is so only if it is set in single quotes and has no double quote and no backslash inside.
-/

namespace TensorBridge

/-! ## Characters that mean themselves -/

/-- ASCII letters and digits mean themselves. -/
theorem isPlainInLiteral_of_isAlphanum {c : Char} (h : c.isAlphanum = true) : IsPlainInLiteral c := by
  refine ⟨?_, ?_, ?_⟩ <;> (rintro rfl; cases h)

/-- The characters of numbers and truth values mean themselves. -/
theorem isPlainInLiteral_of_isScalarChar {c : Char} (h : IsScalarChar c) : IsPlainInLiteral c := by
  have hbackslash : ¬ IsScalarChar '\x5c' := by unfold IsScalarChar; decide
  have hquote : ¬ IsScalarChar '\x22' := by unfold IsScalarChar; decide
  have hbreak : ¬ IsScalarChar '\n' := by unfold IsScalarChar; decide
  refine ⟨?_, ?_, ?_⟩ <;> rintro rfl
  · exact hbackslash h
  · exact hquote h
  · exact hbreak h

/-- The characters of a text in snake case mean themselves. -/
theorem isPlainInLiteral_snakeCase (name : String) : ∀ c ∈ (snakeCase name).toList, IsPlainInLiteral c :=
  forall_mem_snakeCase (by simp [IsPlainInLiteral]) (fun _ => isPlainInLiteral_of_isAlphanum) name

/-- The names of the types mean themselves. -/
theorem isPlainInLiteral_kind (kind : AttrKind) : ∀ c ∈ kind.name.toList, IsPlainInLiteral c := by
  have halpha : kind.name.toList.all Char.isAlphanum = true := by cases kind <;> rfl
  exact fun c hc => isPlainInLiteral_of_isAlphanum (List.all_eq_true.mp halpha c hc)

/-! ## The literal of a registration -/

/-- The text that an attribute is registered with: its name in snake case, its type, and its default. -/
def attributeDescription (name : String) (a : AttrType) : String :=
  snakeCase name ++ ": " ++ a.kind.name ++ " = " ++ a.default

/-- A registration is one literal for the description of its attribute: what stands between its quotes is well
formed, and its value is the description. -/
def Registration.IsLiteralFor (e : Escapes) (name : String) (a : AttrType) : Prop :=
  ∃ body : String, (Registration.ofAttribute name a).text = ".Attr(\"" ++ body ++ "\")" ∧
    literalValue? e body.toList = some (attributeDescription name a).toList

/-- What stands between the quotes is the description itself. -/
theorem attributeText_eq_iff {name body : String} {a : AttrType} :
    (Registration.ofAttribute name a).text = ".Attr(\"" ++ body ++ "\")" ↔ body = attributeDescription name a := by
  have htext : (Registration.ofAttribute name a).text = ".Attr(\"" ++ attributeDescription name a ++ "\")" := by
    simp only [Registration.ofAttribute, Registration.text, AttrType.text, attributeDescription, String.append_assoc]
  rw [htext]
  simp only [← String.toList_inj, String.toList_append, List.append_left_inj, List.append_right_inj]
  exact eq_comm

/-- A registration is a literal for its attribute exactly if every character of the default means itself. -/
theorem isLiteralFor_iff (e : Escapes) (name : String) (a : AttrType) :
    Registration.IsLiteralFor e name a ↔ ∀ c ∈ a.default.toList, IsPlainInLiteral c := by
  have hliteral : Registration.IsLiteralFor e name a ↔
      literalValue? e (attributeDescription name a).toList = some (attributeDescription name a).toList := by
    constructor
    · rintro ⟨body, htext, hvalue⟩
      rwa [attributeText_eq_iff.mp htext] at hvalue
    · exact fun h => ⟨_, attributeText_eq_iff.mpr rfl, h⟩
  have hcolon : ∀ c ∈ (": " : String).toList, IsPlainInLiteral c := by simp [IsPlainInLiteral]
  have hequals : ∀ c ∈ (" = " : String).toList, IsPlainInLiteral c := by simp [IsPlainInLiteral]
  rw [hliteral, literalValue?_eq_self_iff]
  simp only [attributeDescription, String.toList_append, List.forall_mem_append]
  constructor
  · exact fun h => h.2
  · exact fun h => ⟨⟨⟨⟨isPlainInLiteral_snakeCase name, hcolon⟩, isPlainInLiteral_kind a.kind⟩, hequals⟩, h⟩

/-- The characters of an accepted default mean themselves exactly if the default is no string, or one in single
quotes without double quotes and backslashes inside. -/
theorem isPlainInLiteral_default_iff {expression : Value} {a : AttrType}
    (h : AttrType.ofExpression expression = .ok a) :
    (∀ c ∈ a.default.toList, IsPlainInLiteral c) ↔
      (a.kind = .string → ∃ inner : String, a.default = "'" ++ inner ++ "'" ∧
        '\x22' ∉ inner.toList ∧ '\x5c' ∉ inner.toList) := by
  have hliteral := AttrType.isLiteral_of_ofExpression h
  constructor
  · intro hplain hkind
    rw [hkind] at hliteral
    obtain ⟨quote, hquote, inner, hdefault⟩ := AttrType.isQuotedText_iff.mp hliteral
    rw [hdefault, List.forall_mem_append, List.forall_mem_cons] at hplain
    obtain ⟨⟨hplainQuote, hinner⟩, _⟩ := hplain
    -- a double quote at the ends would end the literal there
    have hsingle : quote = '\x27' := by
      rcases List.mem_cons.mp hquote with hsingle | hdouble
      · exact hsingle
      · exact absurd (List.mem_singleton.mp hdouble) hplainQuote.2.1
    subst hsingle
    refine ⟨String.ofList inner, ?_, ?_, ?_⟩
    · simp [← String.toList_inj, hdefault]
    · rw [String.toList_ofList]
      exact fun hmem => (hinner _ hmem).2.1 rfl
    · rw [String.toList_ofList]
      exact fun hmem => (hinner _ hmem).1 rfl
  · intro hstring
    by_cases hkind : a.kind = .string
    · obtain ⟨inner, hdefault, hquote, hbackslash⟩ := hstring hkind
      have hbreak := AttrType.newline_not_mem_default h
      have hends : ∀ c ∈ ("'" : String).toList, IsPlainInLiteral c := by simp [IsPlainInLiteral]
      rw [hdefault, String.toList_append, String.toList_append] at hbreak ⊢
      rw [List.forall_mem_append, List.forall_mem_append]
      refine ⟨⟨hends, fun c hc => ⟨?_, ?_, ?_⟩⟩, hends⟩
      · exact fun heq => hbackslash (heq ▸ hc)
      · exact fun heq => hquote (heq ▸ hc)
      · exact fun heq => hbreak (List.mem_append_left _ (List.mem_append_right _ (heq ▸ hc)))
    · exact fun c hc => isPlainInLiteral_of_isScalarChar (AttrType.isScalarChar_of_isLiteral hkind hliteral c hc)

/-- The registration of an accepted attribute is one well-formed literal for its name, type and default exactly if
the default is no string, or one in single quotes without double quotes and backslashes inside. -/
theorem attributeRegistration_isLiteral_iff (e : Escapes) (name : String) (expression : Value) (a : AttrType)
    (h : AttrType.ofExpression expression = .ok a) :
    Registration.IsLiteralFor e name a ↔
      (a.kind = .string → ∃ inner : String, a.default = "'" ++ inner ++ "'" ∧
        '\x22' ∉ inner.toList ∧ '\x5c' ∉ inner.toList) :=
  (isLiteralFor_iff e name a).trans (isPlainInLiteral_default_iff h)

/-- A string in single quotes is registered as a literal. -/
theorem attributeRegistration_isLiteral_singleQuoted :
    AttrType.ofExpression (.string "string = 'BGR'") = .ok ⟨.string, "'BGR'"⟩ ∧
      Registration.IsLiteralFor Escapes.plain "colorOrder" ⟨.string, "'BGR'"⟩ := by
  have haccepted : AttrType.ofExpression (.string "string = 'BGR'") = .ok ⟨.string, "'BGR'"⟩ := rfl
  refine ⟨haccepted, (attributeRegistration_isLiteral_iff _ _ _ _ haccepted).mpr fun _ => ⟨"BGR", rfl, ?_⟩⟩
  decide

/-- A string in double quotes is accepted, and its registration is no literal for it, whatever the escapes mean. -/
theorem doubleQuoted_not_isLiteral :
    AttrType.ofExpression (.string "string = \"BGR\"") = .ok ⟨.string, "\"BGR\""⟩ ∧
      ¬ ∃ e : Escapes, Registration.IsLiteralFor e "mode" ⟨.string, "\"BGR\""⟩ := by
  refine ⟨rfl, ?_⟩
  rintro ⟨e, h⟩
  rw [isLiteralFor_iff] at h
  exact (h '\x22' (by decide)).2.1 rfl

end TensorBridge
