import TensorBridge.Proofs.Operator.Reading
import TensorBridge.Proofs.Text.NormalForms

/-!
# Writing an operator and reading it again

An operator that was read has its names in their forms, its operands in the order of their roles, and the shapes and
types that its own descriptions are read as. So the data that it is written as is accepted again, under any default
name, and describes the same operator, except for its name: that is brought into Pascal case once more, and this
form is not always kept.
-/

namespace TensorBridge

/-! ## What a reader leaves -/

/-- An operand that its own data are read as. -/
structure Operand.IsRead (p : Operand) : Prop where
  name : trim p.name = p.name
  read : (Operand.read p.id p.name p.role p.tokens).outcome = .ok p

/-- An attribute that its own data are read as. -/
structure Attribute.IsRead (a : Attribute) : Prop where
  name : trim a.name = a.name
  read : Attribute.read a.id a.name a.expression = .ok a

/-- An operator whose parts are in the forms that reading leaves. -/
structure Operator.IsRead (o : Operator) : Prop where
  operands : ∀ p ∈ o.operands, p.IsRead
  grouped : (Role.all.map fun role => o.operands.filter (·.role == role)).flatten = o.operands
  attributes : ∀ a ∈ o.attributes, a.IsRead
  name : ∃ text, o.name = pascalCase text
  function : snakeCase o.function = o.function
  device : o.device.isVoid = false
  valid : o.flaw? = none

namespace SpecEntry

/-- The name of an entry is trimmed. -/
theorem trim_name_of_ofField {place : SpecSection} {field : String × Value} {e : SpecEntry}
    (h : ofField place field = .ok e) : trim e.name = e.name := by
  unfold ofField at h
  split at h
  · split at h
    · cases h
      exact trim_trim field.1
    · cases h
  · cases h

/-- The names of the entries of a section are trimmed. -/
theorem trim_name_of_inSection {place : SpecSection} {fields : List (String × Value)} {entries : List SpecEntry}
    (h : inSection place fields = .ok entries) : ∀ e ∈ entries, trim e.name = e.name := by
  unfold inSection at h
  split at h
  · cases h
    exact List.forall_mem_nil _
  · rw [ofFields_eq_mapM] at h
    exact except_mapM_forall h fun _ _ _ he => trim_name_of_ofField he
  · cases h

/-- An operand is read from its own data. -/
theorem isRead_of_toOperand {role : Role} {e : SpecEntry} {p : Operand} (hname : trim e.name = e.name)
    (h : (toOperand role e).outcome = .ok p) : p.role = role ∧ p.IsRead := by
  obtain ⟨tokens, _, hread⟩ := Traced.outcome_bind_eq_ok.mp h
  obtain ⟨shape, hshape, hp⟩ := Traced.outcome_bind_eq_ok.mp hread
  cases hp
  exact ⟨rfl, hname, hread⟩

/-- An attribute is read from its own data. -/
theorem isRead_of_toAttribute {e : SpecEntry} {a : Attribute} (hname : trim e.name = e.name)
    (h : (toAttribute e).outcome = .ok a) : a.IsRead := by
  obtain ⟨expression, _, hread⟩ := except_bind_eq_ok.mp h
  obtain ⟨type, htype, ha⟩ := except_bind_eq_ok.mp hread
  cases ha
  exact ⟨hname, hread⟩

end SpecEntry

namespace Operator

/-- The operands of a role are read from their own data. -/
theorem isRead_of_readOperands {fields : List (String × Value)} {role : Role} {ps : List Operand}
    (h : (readOperands fields role).outcome = .ok ps) : ∀ p ∈ ps, p.role = role ∧ p.IsRead := by
  obtain ⟨entries, hentries, hread⟩ := Traced.outcome_bind_eq_ok.mp h
  rw [Traced.outcome_forEach] at hread
  exact except_mapM_forall hread fun e he p hp =>
    SpecEntry.isRead_of_toOperand (SpecEntry.trim_name_of_inSection hentries e he) hp

/-- Operands of one role are chosen all or not at all. -/
theorem filter_role_eq {ps : List Operand} {role : Role} (h : ∀ p ∈ ps, p.role = role) (chosen : Role) :
    ps.filter (·.role == chosen) = if role = chosen then ps else [] := by
  split
  · next heq => exact List.filter_eq_self.mpr fun p hp => by simp [h p hp, heq]
  · next hne => exact List.filter_eq_nil_iff.mpr fun p hp => by simp [h p hp, hne]

/-- Operands that come role by role are in the order of the roles. -/
theorem grouped_of_roles {groups : List (List Operand)}
    (h : List.Forall₂ (fun role ps => ∀ p ∈ ps, p.role = role) Role.all groups) :
    (Role.all.map fun role => groups.flatten.filter (·.role == role)).flatten = groups.flatten := by
  obtain ⟨inputs, _, hinputs, hrest, rfl⟩ := List.forall₂_cons_left_iff.mp h
  obtain ⟨outputs, _, houtputs, hlast, rfl⟩ := List.forall₂_cons_left_iff.mp hrest
  obtain ⟨both, _, hboth, hnone, rfl⟩ := List.forall₂_cons_left_iff.mp hlast
  obtain rfl := List.forall₂_nil_left_iff.mp hnone
  simp [Role.all, List.filter_append, filter_role_eq hinputs, filter_role_eq houtputs, filter_role_eq hboth]

/-- The device of an operator that was read does not count as left out. -/
theorem isVoid_device (fields : List (String × Value)) :
    ((Value.given? "device" fields).getD (.string defaultDevice)).isVoid = false := by
  cases hgiven : Value.given? "device" fields with
  | none => rfl
  | some v =>
    obtain ⟨_, hvoid⟩ := Option.filter_eq_some_iff.mp hgiven
    simpa using hvoid

/-- An operator that was read is read from its own parts. -/
theorem isRead_of_read {d : Value} {default : String} {o : Operator} (h : (read d default).outcome = .ok o) :
    o.IsRead := by
  cases d with
  | object fields =>
    change (readFields fields default).outcome = .ok o at h
    unfold readFields at h
    simp only [Traced.outcome_bind_eq_ok, Traced.outcome_ofExcept, validate_eq_ok_iff] at h
    obtain ⟨groups, hgroups, entries, hentries, attributes, hattributes, name, _, function, _, hflaw, rfl⟩ := h
    have hroles : List.Forall₂ (fun role ps => ∀ p ∈ ps, p.role = role ∧ p.IsRead) Role.all groups :=
      (Traced.outcome_forEach_eq_ok.mp hgroups).imp fun _ _ hps => isRead_of_readOperands hps
    rw [Traced.outcome_forEach] at hgroups hattributes
    refine
      { operands := ?_
        grouped := grouped_of_roles (hroles.imp fun _ _ hps p hp => (hps p hp).1)
        attributes := except_mapM_forall hattributes fun e he a ha =>
          SpecEntry.isRead_of_toAttribute (SpecEntry.trim_name_of_inSection hentries e he) ha
        name := ⟨name, rfl⟩
        function := snakeCase_snakeCase function
        device := isVoid_device fields
        valid := hflaw }
    intro p hp
    obtain ⟨ps, hps, hmem⟩ := List.mem_flatten.mp hp
    exact except_mapM_forall hgroups (fun _ _ ps hps p hp => (isRead_of_readOperands hps p hp).2) ps hps p hmem
  | _ => cases h

/-! ## Reading what was written -/

/-- A section of a written operator has its entries. -/
theorem inSection_of_field? {place : SpecSection} {fields entries : List (String × Value)}
    (h : Value.field? place.name fields = some (.object entries)) :
    SpecEntry.inSection place fields = SpecEntry.ofFields place entries := by
  unfold SpecEntry.inSection Value.given?
  rw [h]
  cases entries with
  | nil => rfl
  | cons entry rest => rfl

/-- The operands of a role are written into its section. -/
theorem field?_role (o : Operator) (role : Role) :
    Value.field? (SpecSection.operands role).name o.toValue.fields =
      some (.object ((o.operands.filter (·.role == role)).map operandEntry)) := by
  cases role with
  | input => rfl
  | output => rfl
  | inputOutput => rfl

/-- The attributes are written into theirs. -/
theorem field?_attributes (o : Operator) :
    Value.field? SpecSection.attributes.name o.toValue.fields = some (.object (o.attributes.map attributeEntry)) := rfl

/-- What an operand's entry is checked to. -/
def operandSpecEntry (p : Operand) : SpecEntry :=
  ⟨p.name, p.id, [("id", .int p.id), ((SpecSection.operands p.role).describedBy, p.tokens)]⟩

/-- What an attribute's entry is checked to. -/
def attributeSpecEntry (a : Attribute) : SpecEntry :=
  ⟨a.name, a.id, [("id", .int a.id), (SpecSection.attributes.describedBy, a.expression)]⟩

/-- The entry of an operand that was read passes its check. -/
theorem ofField_operandEntry {p : Operand} (h : p.IsRead) :
    SpecEntry.ofField (.operands p.role) (operandEntry p) = .ok (operandSpecEntry p) := by
  change Except.ok (SpecEntry.mk (trim p.name) _ _) = _
  rw [h.name]
  rfl

/-- The entry of an attribute that was read passes its check. -/
theorem ofField_attributeEntry {a : Attribute} (h : a.IsRead) :
    SpecEntry.ofField .attributes (attributeEntry a) = .ok (attributeSpecEntry a) := by
  change Except.ok (SpecEntry.mk (trim a.name) _ _) = _
  rw [h.name]
  rfl

/-- The operands of a role are read again from its section. -/
theorem IsRead.readOperands_toValue {o : Operator} (h : o.IsRead) (role : Role) :
    (readOperands o.toValue.fields role).outcome = .ok (o.operands.filter (·.role == role)) := by
  have hchosen : ∀ p ∈ o.operands.filter (·.role == role), p.IsRead ∧ p.role = role := by
    intro p hp
    obtain ⟨hmem, hrole⟩ := List.mem_filter.mp hp
    exact ⟨h.operands p hmem, beq_iff_eq.mp hrole⟩
  refine Traced.outcome_bind_eq_ok.mpr
    ⟨(o.operands.filter (·.role == role)).map operandSpecEntry, ?_, Traced.outcome_forEach_eq_ok.mpr ?_⟩
  · rw [Traced.outcome_ofExcept, inSection_of_field? (field?_role o role), SpecEntry.ofFields_eq_mapM,
      except_mapM_eq_ok, List.forall₂_map_left_iff, List.forall₂_map_right_iff, List.forall₂_same]
    intro p hp
    obtain ⟨hread, rfl⟩ := hchosen p hp
    exact ofField_operandEntry hread
  · rw [List.forall₂_map_left_iff, List.forall₂_same]
    intro p hp
    obtain ⟨hread, rfl⟩ := hchosen p hp
    exact Traced.outcome_bind_eq_ok.mpr ⟨p.tokens, rfl, hread.read⟩

/-- The entries of the attributes are read again from their section. -/
theorem IsRead.inSection_attributes {o : Operator} (h : o.IsRead) :
    SpecEntry.inSection .attributes o.toValue.fields = .ok (o.attributes.map attributeSpecEntry) := by
  rw [inSection_of_field? (field?_attributes o), SpecEntry.ofFields_eq_mapM, except_mapM_eq_ok,
    List.forall₂_map_left_iff, List.forall₂_map_right_iff, List.forall₂_same]
  exact fun a ha => ofField_attributeEntry (h.attributes a ha)

/-- The attributes are read again from their entries. -/
theorem IsRead.toAttributes {o : Operator} (h : o.IsRead) :
    (Traced.forEach SpecEntry.toAttribute (o.attributes.map attributeSpecEntry)).outcome = .ok o.attributes := by
  rw [Traced.outcome_forEach_eq_ok, List.forall₂_map_left_iff, List.forall₂_same]
  exact fun a ha => except_bind_eq_ok.mpr ⟨a.expression, rfl, (h.attributes a ha).read⟩

/-- A text in a field is the name in it, if it is not empty. -/
theorem nameIn_of_field? {field default name : String} {fields : List (String × Value)}
    (h : Value.field? field fields = some (.string name)) (hname : name.isEmpty = false) :
    nameIn field default fields = .ok name := by
  have hgiven : Value.given? field fields = some (.string name) := by
    rw [Value.given?, h, Option.filter_some, if_pos]
    simpa [Value.isVoid] using hname
  rw [nameIn, hgiven]

/-- An operator without a flaw can have any name that starts with a capital. -/
theorem flaw?_rename {o : Operator} (h : o.flaw? = none) {name : String}
    (hname : ∃ c rest, name.toList = c :: rest ∧ isUppercase c = true) : { o with name := name }.flaw? = none := by
  obtain ⟨_, hfunction, hclash⟩ := flaw?_eq_none_iff.mp h
  exact flaw?_eq_none_iff.mpr ⟨hname, hfunction, hclash⟩

/-- The name of an operator that was read starts with the same capital once more in Pascal case. -/
theorem IsRead.pascalCase_name {o : Operator} (h : o.IsRead) :
    ∃ c rest, (pascalCase o.name).toList = c :: rest ∧ isUppercase c = true := by
  obtain ⟨⟨c, rest, hname, hcapital⟩, _, _⟩ := flaw?_eq_none_iff.mp h.valid
  have hform : c.isUpper = true := by
    obtain ⟨text, htext⟩ := h.name
    exact isUpper_of_pascalCase (htext ▸ hname) hcapital
  obtain ⟨rest', hrest'⟩ := pascalCase_cons_of_isUpper hname hform
  exact ⟨c, rest', hrest', hcapital⟩

/-- An operator whose parts are in the forms that reading leaves is read from its data, with its name in Pascal case
once more. -/
theorem IsRead.read_toValue {o : Operator} (h : o.IsRead) (default : String) :
    (read o.toValue default).outcome = .ok { o with name := pascalCase o.name } := by
  obtain ⟨⟨c, rest, hname, _⟩, hfunction, _⟩ := flaw?_eq_none_iff.mp h.valid
  have hnonempty : o.name.isEmpty = false := by
    rw [← Bool.not_eq_true, String.isEmpty_iff, ← String.toList_inj, hname]
    exact List.cons_ne_nil _ _
  have hgroups : (Traced.forEach (readOperands o.toValue.fields) Role.all).outcome =
      .ok (Role.all.map fun role => o.operands.filter (·.role == role)) := by
    rw [Traced.outcome_forEach_eq_ok, List.forall₂_map_right_iff, List.forall₂_same]
    exact fun role _ => h.readOperands_toValue role
  have hdevice : (Value.given? "device" o.toValue.fields).getD (.string defaultDevice) = o.device := by
    have hfield : Value.field? "device" o.toValue.fields = some o.device := rfl
    rw [Value.given?, hfield, Option.filter_some, if_pos (by simp [h.device]), Option.getD_some]
  change (readFields o.toValue.fields default).outcome = _
  unfold readFields
  simp only [Traced.outcome_bind_eq_ok, Traced.outcome_ofExcept, validate_eq_ok_iff]
  refine ⟨_, hgroups, _, h.inSection_attributes, _, h.toAttributes, _, nameIn_of_field? rfl hnonempty, _,
    nameIn_of_field? rfl hfunction, ?_⟩
  rw [h.grouped, h.function, hdevice]
  exact ⟨flaw?_rename h.valid h.pascalCase_name, rfl⟩

/-- Operators that differ at most in their names are written alike if they have the same name. -/
theorem toValue_rename_eq_iff (o : Operator) (name : String) :
    ({ o with name := name } : Operator).toValue = o.toValue ↔ name = o.name := by
  simp [toValue]

/-- An operator that was read is accepted again from the data that it is written as, under any default name, and has
the same function, device, operands and attributes; its name is in Pascal case once more. So the data stay the same
exactly if every capital behind a capital in the name is followed by a small letter. No two entries of the data have
one name. -/
theorem toValue_reads_again (d : Value) (default : String) (o : Operator) (hread : (read d default).outcome = .ok o) :
    (∀ default', (read o.toValue default').outcome = .ok { o with name := pascalCase o.name }) ∧
      (({ o with name := pascalCase o.name } : Operator).toValue = o.toValue ↔ capitalsApart o.name.toList = true) ∧
        (o.items.map Prod.snd).Nodup := by
  have hform := isRead_of_read hread
  obtain ⟨text, htext⟩ := hform.name
  refine ⟨hform.read_toValue, ?_, (items_nodup hform.valid).2⟩
  rw [toValue_rename_eq_iff, htext]
  exact pascalCase_pascalCase_eq_iff text

/-- A specification whose only input has blanks around its name. -/
def edgesSpec : Value :=
  .object [
    ("opName", .string "detect_edges"),
    ("inputs", .object [
      (" image ", .object [("id", .int 0), ("shape", .array [.string "none", .string "none", .string "CV_8U"])])]),
    ("attributes", .object [("low", .object [("id", .int 1), ("type", .string "float = 0.5")])])]

/-- The operator of this specification is read again as it is. -/
theorem toValue_reads_again_edges :
    ∃ o, (read edgesSpec "edges").outcome = .ok o ∧ (read o.toValue "other").outcome = .ok o := by
  obtain ⟨o, ho⟩ : ∃ o, (read edgesSpec "edges").outcome = .ok o := except_exists_of_isOk (by rfl)
  have hname : o.name = "DetectEdges" := by
    have hnamed : ((read edgesSpec "edges").outcome.map Operator.name).toOption = some "DetectEdges" := by rfl
    rw [ho] at hnamed
    exact Option.some.inj hnamed
  obtain ⟨hagain, _, _⟩ := toValue_reads_again edgesSpec "edges" o ho
  have hsame : pascalCase o.name = o.name := by
    rw [hname]
    rfl
  have hother := hagain "other"
  rw [hsame] at hother
  exact ⟨o, ho, hother⟩

/-- An operator that is named by a row of letters gets another name when it is read from its own data. -/
theorem toValue_reads_other_name :
    ∃ o o', (read (.object [("opName", .string "a_b_c")]) "x").outcome = .ok o ∧
      (read o.toValue "x").outcome = .ok o' ∧ o.name = "ABC" ∧ o'.name = "Abc" ∧ o'.toValue ≠ o.toValue := by
  refine ⟨⟨"ABC", "x", [], [], .string "DEVICE_CPU"⟩, ⟨"Abc", "x", [], [], .string "DEVICE_CPU"⟩, by rfl, by rfl, rfl,
    rfl, ?_⟩
  intro heq
  have hname : "Abc" = "ABC" := (toValue_rename_eq_iff ⟨"ABC", "x", [], [], .string "DEVICE_CPU"⟩ "Abc").mp heq
  exact absurd hname (by decide)

end Operator

end TensorBridge
