import TensorBridge.Command.Run
import TensorBridge.Proofs.Operator.Reading
import TensorBridge.Proofs.Shape.Tokens

/-!
# Faults in reading a specification

Reading a specification ends with an operator, with a refusal, or with a fault. There are three ways to a fault. The
reading comes to a long numeral in the shape of an operand; or all operands and attributes are read, and then the
operator or its function has a name that is not a text; or the operator is made up, and the message about its flaw
would have to write an id of too many digits. The command reports a refusal together with the file that it is about,
while a fault breaks the command off without a report.
-/

namespace TensorBridge

/-! ## Entries -/

namespace SpecEntry

/-- An operand's entry with a shape in which the reading comes to a long numeral. -/
def HasLongShape (role : Role) (e : SpecEntry) : Prop :=
  ∃ tokens, Value.field? (SpecSection.operands role).describedBy e.fields = some tokens ∧ tokens.IsLongShape

/-- An entry is checked or refused. -/
theorem ofField_ne_fault {place : SpecSection} {field : String × Value} {f : Fault} :
    ofField place field ≠ .error (.fault f) := by
  unfold ofField
  split
  · split <;> simp [refuse]
  · simp [refuse]

/-- A section is checked or refused. -/
theorem inSection_ne_fault {place : SpecSection} {fields : List (String × Value)} {f : Fault} :
    inSection place fields ≠ .error (.fault f) := by
  unfold inSection
  split
  · simp
  · rw [ofFields_eq_mapM]
    intro h
    obtain ⟨field, _, hfield⟩ := except_mapM_eq_error h
    exact ofField_ne_fault hfield
  · simp [refuse]

/-- The description of an entry is its field for that. -/
theorem description_eq_ok_iff {place : SpecSection} {e : SpecEntry} {v : Value} :
    description place e = .ok v ↔ Value.field? place.describedBy e.fields = some v := by
  unfold description
  split
  · next value hvalue => simp [hvalue]
  · next hnone => simp [hnone, refuse]

/-- A description is there or refused. -/
theorem description_ne_fault {place : SpecSection} {e : SpecEntry} {f : Fault} :
    description place e ≠ .error (.fault f) := by
  unfold description
  split <;> simp [refuse]

/-- Reading an operand ends in a fault exactly if it comes to a long numeral in the shape. -/
theorem toOperand_eq_fault_iff {role : Role} {e : SpecEntry} {f : Fault} :
    (toOperand role e).outcome = .error (.fault f) ↔ f = .numeralTooLong ∧ e.HasLongShape role := by
  have hread {tokens : Value} : (Operand.read e.id e.name role tokens).outcome = .error (.fault f) ↔
      f = .numeralTooLong ∧ tokens.IsLongShape := by
    rw [← Shape.read_eq_fault_iff]
    refine Traced.outcome_bind_eq_error.trans (or_iff_left ?_)
    rintro ⟨shape, _, h⟩
    cases h
  refine Traced.outcome_bind_eq_error.trans ((or_iff_right description_ne_fault).trans ?_)
  simp only [Traced.outcome_ofExcept, description_eq_ok_iff, hread]
  exact ⟨fun ⟨tokens, h, hf, hlong⟩ => ⟨hf, tokens, h, hlong⟩, fun ⟨hf, tokens, h, hlong⟩ => ⟨tokens, h, hf, hlong⟩⟩

/-- An attribute is read or refused. -/
theorem toAttribute_ne_fault {e : SpecEntry} {f : Fault} : (toAttribute e).outcome ≠ .error (.fault f) := by
  intro h
  rcases except_bind_eq_error.mp h with h | ⟨expression, _, h⟩
  · exact description_ne_fault h
  rcases except_bind_eq_error.mp h with h | ⟨type, _, h⟩
  · unfold AttrType.ofExpression at h
    split at h
    · split at h
      · cases h
      · dsimp only at h
        split at h <;> cases h
    · cases h
  · cases h

end SpecEntry

/-! ## Operators -/

namespace Operator

variable {fields : List (String × Value)} {f : Fault}

/-- In a section that passes its check, the reading comes to a long numeral. -/
def SectionIsLong (fields : List (String × Value)) (role : Role) : Prop :=
  ∃ entries, SpecEntry.inSection (.operands role) fields = .ok entries ∧
    StopsFirst (fun e => ∃ p, (SpecEntry.toOperand role e).outcome = .ok p) (SpecEntry.HasLongShape role) entries

/-- A name that is given and is not a text. -/
def NameIsNoText (fields : List (String × Value)) (field : String) : Prop :=
  ∃ v, Value.given? field fields = some v ∧ ∀ text, v ≠ .string text

/-- All operands and attributes are read. -/
structure PartsAreRead (fields : List (String × Value)) : Prop where
  operands : ∀ role ∈ Role.all, ∃ ps, (readOperands fields role).outcome = .ok ps
  attributes : ∃ entries, SpecEntry.inSection .attributes fields = .ok entries ∧
    ∀ e ∈ entries, ∃ a, (SpecEntry.toAttribute e).outcome = .ok a

/-- The fields of a specification make up an operator, whatever its checks say. -/
inductive MakesUp (fields : List (String × Value)) (default : String) : Operator → Prop
  | parts {groups : List (List Operand)} {entries : List SpecEntry} {attributes : List Attribute}
      {name function : String} (hgroups : (Traced.forEach (readOperands fields) Role.all).outcome = .ok groups)
      (hentries : SpecEntry.inSection .attributes fields = .ok entries)
      (hattributes : (Traced.forEach SpecEntry.toAttribute entries).outcome = .ok attributes)
      (hname : nameIn "opName" default fields = .ok name)
      (hfunction : nameIn "fnName" default fields = .ok function) :
    MakesUp fields default
      { name := pascalCase name
        function := snakeCase function
        operands := groups.flatten
        attributes
        device := (Value.given? "device" fields).getD (.string defaultDevice) }

/-- The three ways to a fault: a long numeral in the first section that is not read, a name that is no text after
everything else has been read, or a flaw of the operator without a message. -/
inductive MeetsFault (fields : List (String × Value)) (default : String) : Fault → Prop
  | numeral (h : StopsFirst (fun role => ∃ ps, (readOperands fields role).outcome = .ok ps) (SectionIsLong fields)
      Role.all) : MeetsFault fields default .numeralTooLong
  | name (hparts : PartsAreRead fields) (field : String) (hfield : field ∈ ["opName", "fnName"])
      (h : NameIsNoText fields field) : MeetsFault fields default .nameNotText
  | message {o : Operator} (hmade : MakesUp fields default o) (flaw : SpecFlaw) (hflaw : o.flaw? = some flaw)
      (h : flaw.hasMessage = false) : MeetsFault fields default .numeralTooLong

/-- Reading the operands of a role ends in a fault exactly if it comes to a long numeral. -/
theorem readOperands_eq_fault_iff {role : Role} :
    (readOperands fields role).outcome = .error (.fault f) ↔ f = .numeralTooLong ∧ SectionIsLong fields role := by
  refine Traced.outcome_bind_eq_error.trans ((or_iff_right SpecEntry.inSection_ne_fault).trans ?_)
  simp only [Traced.outcome_ofExcept, Traced.forEach_eq_error_iff, SpecEntry.toOperand_eq_fault_iff, stopsFirst_and]
  exact ⟨fun ⟨entries, h, hf, hstop⟩ => ⟨hf, entries, h, hstop⟩, fun ⟨hf, entries, h, hstop⟩ => ⟨entries, h, hf, hstop⟩⟩

/-- A name is there unless it is given and is not a text. -/
theorem nameIn_eq_error_iff {field default : String} {e : Error} :
    nameIn field default fields = .error e ↔ e = .fault .nameNotText ∧ NameIsNoText fields field := by
  unfold nameIn NameIsNoText
  split
  · next hnone => simp [hnone]
  · next name hname => simp [hname]
  · next v hother hv =>
    simp only [Except.error.injEq, hv, Option.some.injEq, exists_eq_left']
    exact ⟨fun h => ⟨h.symm, fun text heq => hother text (heq ▸ rfl)⟩, fun h => h.1.symm⟩

/-- Reading the fields of a specification ends in a fault exactly in one of the three ways. -/
theorem readFields_eq_fault_iff {default : String} :
    (readFields fields default).outcome = .error (.fault f) ↔ MeetsFault fields default f := by
  unfold readFields
  constructor
  · intro h
    rcases Traced.outcome_bind_eq_error.mp h with h | ⟨groups, hgroups, h⟩
    · simp only [Traced.forEach_eq_error_iff, readOperands_eq_fault_iff, stopsFirst_and] at h
      obtain ⟨rfl, hstop⟩ := h
      exact .numeral hstop
    rcases Traced.outcome_bind_eq_error.mp h with h | ⟨entries, hentries, h⟩
    · exact absurd h SpecEntry.inSection_ne_fault
    rcases Traced.outcome_bind_eq_error.mp h with h | ⟨attributes, hattributes, h⟩
    · obtain ⟨_, e, _, _, _, he⟩ := Traced.forEach_eq_error_iff.mp h
      exact absurd he SpecEntry.toAttribute_ne_fault
    have hparts : PartsAreRead fields :=
      { operands := Traced.forEach_succeeds_iff.mp ⟨groups, hgroups⟩
        attributes := ⟨entries, hentries, Traced.forEach_succeeds_iff.mp ⟨attributes, hattributes⟩⟩ }
    rcases Traced.outcome_bind_eq_error.mp h with h | ⟨name, hname, h⟩
    · obtain ⟨heq, hname⟩ := nameIn_eq_error_iff.mp h
      cases heq
      exact .name hparts "opName" (by decide) hname
    rcases Traced.outcome_bind_eq_error.mp h with h | ⟨function, hfunction, h⟩
    · obtain ⟨heq, hname⟩ := nameIn_eq_error_iff.mp h
      cases heq
      exact .name hparts "fnName" (by decide) hname
    · rw [Traced.outcome_ofExcept] at h
      obtain ⟨rfl, flaw, hflaw, hmessage⟩ := validate_eq_fault_iff.mp h
      exact .message (.parts hgroups hentries hattributes hname hfunction) flaw hflaw hmessage
  · rintro (⟨hstop⟩ | ⟨hparts, field, hfield, hname⟩ | ⟨hmade, flaw, hflaw, hmessage⟩)
    · refine Traced.outcome_bind_eq_error.mpr (.inl (Traced.forEach_eq_error_iff.mpr ?_))
      simpa only [readOperands_eq_fault_iff, stopsFirst_and, true_and] using hstop
    · obtain ⟨groups, hgroups⟩ := Traced.forEach_succeeds_iff.mpr hparts.operands
      obtain ⟨entries, hentries, hread⟩ := hparts.attributes
      obtain ⟨attributes, hattributes⟩ := Traced.forEach_succeeds_iff.mpr hread
      refine Traced.outcome_bind_eq_error.mpr (.inr ⟨groups, hgroups, ?_⟩)
      refine Traced.outcome_bind_eq_error.mpr (.inr ⟨entries, hentries, ?_⟩)
      refine Traced.outcome_bind_eq_error.mpr (.inr ⟨attributes, hattributes, ?_⟩)
      cases hop : nameIn "opName" default fields with
      | error e =>
        obtain ⟨rfl, _⟩ := nameIn_eq_error_iff.mp hop
        exact Traced.outcome_bind_eq_error.mpr (.inl rfl)
      | ok name =>
        refine Traced.outcome_bind_eq_error.mpr (.inr ⟨name, rfl, ?_⟩)
        have hfault : nameIn field default fields = .error (.fault .nameNotText) :=
          nameIn_eq_error_iff.mpr ⟨rfl, hname⟩
        rcases List.mem_pair.mp hfield with rfl | rfl
        · rw [hop] at hfault
          cases hfault
        · exact Traced.outcome_bind_eq_error.mpr (.inl hfault)
    · obtain ⟨hgroups, hentries, hattributes, hname, hfunction⟩ := hmade
      refine Traced.outcome_bind_eq_error.mpr (.inr ⟨_, hgroups, ?_⟩)
      refine Traced.outcome_bind_eq_error.mpr (.inr ⟨_, hentries, ?_⟩)
      refine Traced.outcome_bind_eq_error.mpr (.inr ⟨_, hattributes, ?_⟩)
      refine Traced.outcome_bind_eq_error.mpr (.inr ⟨_, hname, ?_⟩)
      refine Traced.outcome_bind_eq_error.mpr (.inr ⟨_, hfunction, ?_⟩)
      rw [Traced.outcome_ofExcept]
      exact validate_eq_fault_iff.mpr ⟨rfl, flaw, hflaw, hmessage⟩

/-! ## The command -/

/-- A file with the text of some data is loaded as these data. -/
theorem load_of_text {t : FileTree} {path text : String} {data : Value} (htext : t.read path = .ok text)
    (hdata : Value.ofText text = .ok data) : load t path = read data (Path.stem path) := by
  rw [load, htext]
  dsimp only
  rw [hdata]

/-- A specification that is not read ends the command with its error. -/
theorem ending_of_load_eq_error {t : FileTree} {path output : String} {e : Error} (h : (load t path).outcome = .error e)
    (directory : Option String) (options : RenderOptions) (records : List Record) (rest : List String) :
    (Command.renderAll directory options output records t (path :: rest)).ending =
      CommandRun.endingBy output (path ++ ": ") e := by
  have hwriting : (writeKernel t path directory options).result.outcome = .error e :=
    Traced.outcome_bind_eq_error.mpr (.inl (Traced.outcome_bind_eq_error.mpr (.inl h)))
  rw [Command.renderAll, hwriting]
  rfl

/-- Reading a specification ends in a fault exactly in one of three ways: it comes to a long numeral in the shape of an
operand; or, once all operands and attributes have been read, the operator or its function has a name that is not a
text; or the operator is flawed by a repeated id of too many digits, more than those of any id that a file gives.
Anything else that is wrong is a refusal, and the command then reports the file with the message and ends with exit
code 1; a fault breaks it off. -/
theorem read_meets_fault_iff (data : Value) (default : String) :
    (∀ f, (read data default).outcome = .error (.fault f) ↔
      ∃ fields, data = .object fields ∧ MeetsFault fields default f) ∧
      ∀ t path text, t.read path = .ok text → Value.ofText text = .ok data → Path.stem path = default →
        ∀ directory options output records rest,
          (∀ r, (read data default).outcome = .error (.refusal r) → isEncodable output = true →
            (Command.renderAll directory options output records t (path :: rest)).ending =
              .finished 1 (withoutControl output)
                (escapeHalves (withoutControl ("Error: " ++ (path ++ ": ") ++ r.message ++ "\n")))) ∧
          ∀ f, (read data default).outcome = .error (.fault f) →
            (Command.renderAll directory options output records t (path :: rest)).ending = .broken f := by
  constructor
  · intro f
    cases data with
    | object fields =>
      change (readFields fields default).outcome = _ ↔ _
      rw [readFields_eq_fault_iff]
      constructor
      · exact fun h => ⟨fields, rfl, h⟩
      · rintro ⟨_, heq, h⟩
        cases heq
        exact h
    | _ =>
      refine iff_of_false (fun h => nomatch h) ?_
      rintro ⟨_, heq, _⟩
      cases heq
  · rintro t path text htext hdata rfl directory options output records rest
    have hload := load_of_text htext hdata
    constructor
    · intro r h houtput
      rw [ending_of_load_eq_error (hload ▸ h), CommandRun.endingBy, CommandRun.endingWith, if_pos houtput]
      rfl
    · intro f h
      rw [ending_of_load_eq_error (hload ▸ h)]
      rfl

/-- A file with a list in place of a specification. -/
def listTree : FileTree := { workingPlace := [], nodes := [(["spec.json"], .text "[]")] }

/-- The list is refused, and the command reports that with the file. -/
theorem read_meets_fault_iff_list :
    (Command.renderAll none ⟨none, none, []⟩ "" [] listTree ["spec.json"]).ending =
      .finished 1 "" "Error: spec.json: An operator spec must be a JSON object\n" := by
  obtain ⟨_, hcommand⟩ := read_meets_fault_iff (.array []) "spec"
  have hending := hcommand listTree "spec.json" "[]" (by decide +kernel) (by rfl) (by decide +kernel) none
    ⟨none, none, []⟩ "" [] []
  refine (hending.1 (.spec (.notAnObject (.array []))) (by rfl) (by rfl)).trans ?_
  decide +kernel

/-- A specification whose operator is named by a number is neither read nor refused. -/
theorem read_faults_at_number :
    (read (.object [("opName", .int 5)]) "x").outcome = .error (.fault .nameNotText) := by rfl

end Operator

end TensorBridge
