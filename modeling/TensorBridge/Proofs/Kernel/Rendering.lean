import TensorBridge.Proofs.Operator.Distinct
import TensorBridge.Proofs.Shape.Layout

/-!
# When a kernel is rendered

A kernel is put together from the data type of every operand, which the tables have for all elements but one kind:
the name of a primitive type that ends in a line break. The reader of shapes accepts such a name. An operator has a
kernel exactly if none of its operands is described in that way, and where it has none, the refusal names the type.
-/

namespace TensorBridge

/-! ## Types that no table has -/

namespace Element

/-- The primitive type whose name an element gives with a line break behind it. -/
def brokenName? : Element → Option Primitive
  | .primitive type true => some type
  | _ => none

/-- Every element has a depth but those. -/
theorem findDepth_succeeds_iff (e : Element) : (∃ depth, e.findDepth = .ok depth) ↔ e.brokenName? = none := by
  cases e with
  | primitive type endsLine => cases endsLine <;> simp [findDepth, brokenName?, refuse]
  | matrix depth written container endsLine => simp [findDepth, brokenName?]

/-- The refusal of a depth names the type with its line break. -/
theorem findDepth_eq_error {e : Element} {error : Error} (h : e.findDepth = .error error) :
    ∃ type, e.brokenName? = some type ∧
      error = .refusal (.unsupportedType .primitive (.string (type.name ++ "\n"))) := by
  cases e with
  | primitive type endsLine =>
    cases endsLine with
    | true =>
      cases h
      exact ⟨type, rfl, rfl⟩
    | false => cases h
  | matrix depth written container endsLine => cases h

/-- Exactly the name of a primitive type and a line break are read as such an element. -/
theorem brokenName?_eq_some_iff {token : Value} {e : Element} (h : ofToken token = .ok e) (type : Primitive) :
    e.brokenName? = some type ↔ token = .string (type.name ++ "\n") := by
  constructor
  · intro hbroken
    obtain rfl : e = .primitive type true := by
      unfold brokenName? at hbroken
      split at hbroken
      · cases hbroken
        rfl
      · cases hbroken
    cases token with
    | string s =>
      obtain ⟨_, suffix, _, hsuffix, rfl⟩ := ofToken_eq_ok_iff.mp h
      obtain rfl := hsuffix.resolve_right Bool.false_ne_true
      exact congrArg Value.string String.append_empty
    | _ => cases h
  · rintro rfl
    have hread : ofToken (.string (type.name ++ "\n")) = .ok (.primitive type true) := by cases type <;> rfl
    rw [hread] at h
    cases h
    rfl

end Element

/-! ## Operands of such types -/

/-- The last token of an operand's shape is the name of a primitive type and a line break. -/
def Operand.NamesBroken (p : Operand) (type : Primitive) : Prop :=
  ∃ front, p.tokens = .array (front ++ [.string (type.name ++ "\n")])

/-- An operand has the element that its last token is read as. -/
theorem Operand.brokenName?_eq_some_iff {p : Operand} (h : (Shape.read p.tokens).outcome = .ok p.shape)
    (type : Primitive) : p.shape.element.brokenName? = some type ↔ p.NamesBroken type := by
  unfold Shape.read at h
  split at h
  · next items htokens =>
    obtain ⟨s, hs, h⟩ := Traced.outcome_bind_eq_ok.mp h
    obtain ⟨_, _, h⟩ := Traced.outcome_bind_eq_ok.mp h
    cases h
    obtain ⟨dims, element, ⟨front, last, rfl, _, hlast⟩, _, hshape⟩ := Shape.ofTokens_eq_ok_iff.mp hs
    have helement : p.shape.element = element := congrArg Shape.element hshape
    rw [helement, Element.brokenName?_eq_some_iff hlast, Operand.NamesBroken, htokens]
    constructor
    · rintro rfl
      exact ⟨front, rfl⟩
    · rintro ⟨front', heq⟩
      exact (List.append_singleton_inj.mp (Value.array.inj heq)).2
  · cases h

/-! ## The parts of a kernel -/

section Statements

variable {name : String} {index : Int} {s : Shape}

/-- An input is registered exactly if its data type is known. -/
theorem Registration.ofInput_succeeds_iff :
    (∃ line, ofInput name s = .ok line) ↔ s.element.brokenName? = none := by
  rw [← Element.findDepth_succeeds_iff]
  simp [ofInput, Element.tensorType, except_map_eq_ok]

/-- An output is registered exactly if its data type is known. -/
theorem Registration.ofOutput_succeeds_iff :
    (∃ line, ofOutput name s = .ok line) ↔ s.element.brokenName? = none := by
  rw [← Element.findDepth_succeeds_iff]
  simp [ofOutput, Element.tensorType, except_map_eq_ok]

/-- The values of a tensor can be reached if its data type is known. -/
theorem tensorValues_succeeds (tensor : String) (arrow : Bool) (h : s.element.brokenName? = none) :
    ∃ values, tensorValues tensor arrow s = .ok values := by
  obtain ⟨depth, hdepth⟩ := s.element.findDepth_succeeds_iff.mpr h
  rw [tensorValues, Element.tensorScalar, hdepth]
  exact ⟨_, rfl⟩

/-- The statements for an input are there if its data type is known. -/
theorem inputStatements_succeeds (h : s.element.brokenName? = none) :
    ∃ stmts, (inputStatements name index s).outcome = .ok stmts := by
  obtain ⟨values, hvalues⟩ := tensorValues_succeeds (Names.tensorIn ⟨name⟩) false h
  refine Traced.bind_succeeds_iff.mpr ⟨Conversion.of name s .toValue, rfl, ?_⟩
  exact Traced.bind_succeeds_iff.mpr ⟨values, hvalues, _, rfl⟩

/-- The statements for an output are there if its data type is known. -/
theorem outputStatements_succeeds (h : s.element.brokenName? = none) :
    ∃ stmts, (outputStatements name index s).outcome = .ok stmts := by
  obtain ⟨values, hvalues⟩ := tensorValues_succeeds (Names.tensorOut ⟨name⟩) true h
  refine Traced.bind_succeeds_iff.mpr ⟨Conversion.of name s .toTensor, rfl, ?_⟩
  exact Traced.bind_succeeds_iff.mpr ⟨values, hvalues, _, rfl⟩

end Statements

namespace Operator

variable {o : Operator} {options : RenderOptions}

/-- The inputs and the outputs together are the operands. -/
theorem forall_inputs_and_outputs {P : Operand → Prop} :
    ((∀ p ∈ o.inputs, P p) ∧ ∀ p ∈ o.outputs, P p) ↔ ∀ p ∈ o.operands, P p := by
  simp only [inputs, outputs, (sortBy_perm Operand.id _).mem_iff, List.mem_filter]
  constructor
  · rintro ⟨hinputs, houtputs⟩ p hp
    cases hrole : p.role with
    | input => exact hinputs p ⟨hp, by rw [hrole]; rfl⟩
    | output => exact houtputs p ⟨hp, by rw [hrole]; rfl⟩
    | inputOutput => exact hinputs p ⟨hp, by rw [hrole]; rfl⟩
  · exact fun h => ⟨fun p hp => h p hp.1, fun p hp => h p hp.1⟩

/-- An operator is registered exactly if the data types of all operands are known. -/
theorem registrations_succeeds_iff :
    (∃ lines, o.registrations = .ok lines) ↔ ∀ p ∈ o.operands, p.shape.element.brokenName? = none := by
  rw [← forall_inputs_and_outputs]
  have hinputs : (∃ lines, (o.inputs.mapM fun p => Registration.ofInput p.inputName p.shape) = .ok lines) ↔
      ∀ p ∈ o.inputs, p.shape.element.brokenName? = none := by
    simp only [except_mapM_succeeds_iff, Registration.ofInput_succeeds_iff]
  have houtputs : (∃ lines, (o.outputs.mapM fun p => Registration.ofOutput p.name p.shape) = .ok lines) ↔
      ∀ p ∈ o.outputs, p.shape.element.brokenName? = none := by
    simp only [except_mapM_succeeds_iff, Registration.ofOutput_succeeds_iff]
  rw [← hinputs, ← houtputs, registrations, except_bind_succeeds_iff]
  constructor
  · rintro ⟨inputs, h, hrest⟩
    obtain ⟨outputs, h', _⟩ := except_bind_succeeds_iff.mp hrest
    exact ⟨⟨inputs, h⟩, outputs, h'⟩
  · rintro ⟨⟨inputs, h⟩, outputs, h'⟩
    exact ⟨inputs, h, except_bind_succeeds_iff.mpr ⟨outputs, h', _, rfl⟩⟩

/-- A registration that fails names a type that no table has. -/
theorem registrations_eq_error {error : Error} (h : o.registrations = .error error) :
    ∃ p ∈ o.operands, ∃ type, p.shape.element.brokenName? = some type ∧
      error = .refusal (.unsupportedType .primitive (.string (type.name ++ "\n"))) := by
  have hline {s : Shape} {toLine : String → Registration} (hfail : s.element.tensorType.map toLine = .error error) :
      s.element.findDepth = .error error := by
    rw [Element.tensorType] at hfail
    cases hdepth : s.element.findDepth with
    | error error' =>
      rw [hdepth] at hfail
      cases hfail
      rfl
    | ok depth =>
      rw [hdepth] at hfail
      cases hfail
  have hoperand : ∃ p ∈ o.operands, p.shape.element.findDepth = .error error := by
    rcases except_bind_eq_error.mp h with h | ⟨_, _, h⟩
    · obtain ⟨p, hp, hfail⟩ := except_mapM_eq_error h
      exact ⟨p, List.mem_of_mem_filter ((sortBy_perm Operand.id _).mem_iff.mp hp), hline hfail⟩
    · rcases except_bind_eq_error.mp h with h | ⟨_, _, h⟩
      · obtain ⟨p, hp, hfail⟩ := except_mapM_eq_error h
        exact ⟨p, List.mem_of_mem_filter ((sortBy_perm Operand.id _).mem_iff.mp hp), hline hfail⟩
      · cases h
  obtain ⟨p, hp, hfail⟩ := hoperand
  exact ⟨p, hp, Element.findDepth_eq_error hfail⟩

/-- Once an operator is registered, nothing else that its kernel needs is missing. -/
theorem kernel_of_registrations {lines : List Registration} (hlines : o.registrations = .ok lines) :
    ∃ k, (o.kernel options).outcome = .ok k := by
  obtain ⟨hinputs, houtputs⟩ := forall_inputs_and_outputs.mpr (registrations_succeeds_iff.mp ⟨lines, hlines⟩)
  have hnumbered {l : List Operand} {x : Operand × Nat} (hx : x ∈ l.zipIdx) : x.1 ∈ l :=
    (List.mem_zipIdx' hx).2 ▸ List.getElem_mem _
  have hinput : ∀ x ∈ o.inputs.zipIdx, ∃ stmts, (inputStatements x.1.name (x.2 : Nat) x.1.shape).outcome = .ok stmts :=
    fun x hx => inputStatements_succeeds (hinputs x.1 (hnumbered hx))
  have houtput : ∀ x ∈ o.outputs.zipIdx,
      ∃ stmts, (outputStatements x.1.name (x.2 : Nat) x.1.shape).outcome = .ok stmts :=
    fun x hx => outputStatements_succeeds (houtputs x.1 (hnumbered hx))
  obtain ⟨inputs, hinputs⟩ := Traced.forEach_succeeds_iff.mpr hinput
  obtain ⟨outputs, houtputs⟩ := Traced.forEach_succeeds_iff.mpr houtput
  refine Traced.bind_succeeds_iff.mpr ⟨lines, hlines, ?_⟩
  refine Traced.bind_succeeds_iff.mpr ⟨inputs, hinputs, ?_⟩
  refine Traced.bind_succeeds_iff.mpr ⟨outputs, houtputs, ?_⟩
  exact Traced.bind_succeeds_iff.mpr ⟨(), rfl, _, rfl⟩

/-- An operator has a text exactly if it is registered. -/
theorem render_of_registrations :
    (∃ text, (o.render options).outcome = .ok text) ↔ ∃ lines, o.registrations = .ok lines := by
  rw [render, Traced.bind_succeeds_iff]
  constructor
  · rintro ⟨k, hk, _⟩
    obtain ⟨lines, hlines, _⟩ := Traced.outcome_bind_eq_ok.mp hk
    exact ⟨lines, hlines⟩
  · rintro ⟨lines, hlines⟩
    obtain ⟨k, hk⟩ := kernel_of_registrations hlines
    exact ⟨k, hk, _, rfl⟩

/-- A rendering fails with the error of the registration. -/
theorem registrations_of_render_eq_error {error : Error} (h : (o.render options).outcome = .error error) :
    o.registrations = .error error := by
  cases hlines : o.registrations with
  | ok lines =>
    obtain ⟨text, htext⟩ := render_of_registrations.mpr ⟨lines, hlines⟩
    rw [htext] at h
    cases h
  | error error' =>
    rcases Traced.outcome_bind_eq_error.mp h with h | ⟨k, hk, _⟩
    · rcases Traced.outcome_bind_eq_error.mp h with h | ⟨lines, hlines', _⟩
      · rw [← hlines]
        exact h
      · rw [Traced.outcome_ofExcept, hlines] at hlines'
        cases hlines'
    · obtain ⟨lines, hlines', _⟩ := Traced.outcome_bind_eq_ok.mp hk
      rw [Traced.outcome_ofExcept, hlines] at hlines'
      cases hlines'

/-- A source text is rendered exactly if no operand is described by the name of a primitive type and a line break;
otherwise the name of such an operand's type is refused. -/
theorem render_succeeds_iff (hread : ∀ p ∈ o.operands, (Shape.read p.tokens).outcome = .ok p.shape)
    (options : RenderOptions) :
    ((∃ text, (o.render options).outcome = .ok text) ↔ ∀ p ∈ o.operands, ∀ type, ¬ p.NamesBroken type) ∧
      ∀ error, (o.render options).outcome = .error error → ∃ p ∈ o.operands, ∃ type, p.NamesBroken type ∧
        error = .refusal (.unsupportedType .primitive (.string (type.name ++ "\n"))) := by
  constructor
  · rw [render_of_registrations, registrations_succeeds_iff]
    refine forall₂_congr fun p hp => ?_
    rw [Option.eq_none_iff_forall_ne_some]
    exact forall_congr' fun type => not_congr (Operand.brokenName?_eq_some_iff (hread p hp) type)
  · intro error h
    obtain ⟨p, hp, type, hbroken, herror⟩ := registrations_eq_error (registrations_of_render_eq_error h)
    exact ⟨p, hp, type, (Operand.brokenName?_eq_some_iff (hread p hp) type).mp hbroken, herror⟩

/-- The specification of an operator with one input that is a lone value of the type `int`, with or without a line
break behind the type's name. -/
def echoSpec (endsLine : Bool) : Value :=
  .object [("inputs", .object [("x", .object [("id", .int 0),
    ("shape", .array [.string (if endsLine then "int\n" else "int")])])])]

/-- The operator of that specification. -/
def echo (endsLine : Bool) : Operator :=
  { name := "Echo"
    function := "echo"
    operands := [⟨0, "x", .input, .array [.string (if endsLine then "int\n" else "int")],
      ⟨[], [], .primitive .int endsLine⟩⟩]
    attributes := []
    device := .string defaultDevice }

/-- The operator without the line break has a text, since its operand does not end in a line break. -/
theorem render_succeeds_iff_echo :
    (∀ p ∈ (echo false).operands, (Shape.read p.tokens).outcome = .ok p.shape) ∧
      ∃ text, ((echo false).render .default).outcome = .ok text := by
  have hread : ∀ p ∈ (echo false).operands, (Shape.read p.tokens).outcome = .ok p.shape :=
    List.forall_mem_singleton.mpr rfl
  refine ⟨hread, (render_succeeds_iff hread .default).1.mpr ?_⟩
  refine List.forall_mem_singleton.mpr fun type hbroken => ?_
  have hknown := (Operand.brokenName?_eq_some_iff (hread _ List.mem_cons_self) type).mpr hbroken
  cases hknown

/-- The operator with the line break is read without an error, but has no text under any setting. -/
theorem render_refuses_echo :
    (read (echoSpec true) "echo").outcome = .ok (echo true) ∧ ∀ options : RenderOptions,
      ((echo true).render options).outcome = .error (.refusal (.unsupportedType .primitive (.string "int\n"))) :=
  ⟨rfl, fun _ => rfl⟩

end Operator

end TensorBridge
