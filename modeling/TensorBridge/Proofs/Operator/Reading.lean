import TensorBridge.Proofs.Computation
import TensorBridge.Proofs.Operator.Rearranged
import TensorBridge.Proofs.Operator.Renumbered

/-!
# Reading rearranged specifications

Each reader of a specification is followed on the specification and on a rearranged one: the sections, their
entries, the operands and attributes, and the operator as a whole. The order in which the second operator lists
its operands is any order; only the ids keep their own.
-/

namespace TensorBridge

open Value (NamesOnce SameField ReorderedBy EntryReordered SectionReordered SpecReordered)

variable {f : Int → Int}

/-! ## Sections and settings -/

/-- Values that are related by equality are equal. -/
theorem option_eq_of_rel {x y : Option Value} (h : Option.Rel (fun v w => w = v) x y) : y = x := by
  cases h with
  | none => rfl
  | some hvw => rw [hvw]

/-- A value that is there is related to one that is there. -/
theorem option_some_of_rel {R : Value → Value → Prop} {v : Value} {y : Option Value}
    (h : Option.Rel R (some v) y) : ∃ w, y = some w ∧ R v w := by
  cases h with
  | some hvw => exact ⟨_, rfl, hvw⟩

/-- A value that is absent is related to one that is absent. -/
theorem option_none_of_rel {R : Value → Value → Prop} {y : Option Value} (h : Option.Rel R none y) : y = none := by
  cases h
  rfl

namespace Value

/-- The values of one name are related, also where those that count as left out are dropped. -/
theorem given?_rearranged {R : String → Value → Value → Prop} {S : Value → Value → Prop} {name : String}
    {fields fields' : List (String × Value)} (h : Rearranged (SameField R) fields fields')
    (hnames : (fields.map Prod.fst).Nodup) (hstep : ∀ v w, R name v w → S v w ∧ w.isVoid = v.isVoid) :
    Option.Rel S (given? name fields) (given? name fields') := by
  have hrel := field?_rearranged h hnames name
  rw [given?, given?]
  generalize field? name fields = x at hrel
  generalize field? name fields' = y at hrel
  cases hrel with
  | none => exact Option.Rel.none
  | @some v w hvw =>
    obtain ⟨hvw, hvoid⟩ := hstep v w hvw
    rw [Option.filter_some, Option.filter_some, hvoid]
    split
    · exact Option.Rel.some hvw
    · exact Option.Rel.none

/-- A section stays, with its entries rearranged. -/
theorem given?_section {fields fields' : List (String × Value)}
    (h : SpecReordered f (.object fields) (.object fields')) (hnames : (fields.map Prod.fst).Nodup)
    (place : SpecSection) :
    Option.Rel (SectionReordered f) (given? place.name fields) (given? place.name fields') := by
  obtain ⟨_, heq, h⟩ := h
  cases heq
  apply given?_rearranged h hnames
  intro v w hvw
  have hsection := hvw.1 ⟨place, rfl⟩
  exact ⟨hsection, isVoid_eq_of_reorderedBy hsection⟩

/-- A field that is not a section stays as it is. -/
theorem given?_setting {fields fields' : List (String × Value)}
    (h : SpecReordered f (.object fields) (.object fields')) (hnames : (fields.map Prod.fst).Nodup)
    {name : String} (hname : ∀ place : SpecSection, place.name ≠ name) :
    given? name fields' = given? name fields := by
  obtain ⟨_, heq, h⟩ := h
  cases heq
  apply option_eq_of_rel
  apply given?_rearranged h hnames
  intro v w hvw
  have heq := hvw.2 hname
  exact ⟨heq, congrArg isVoid heq⟩

end Value

/-! ## Entries -/

namespace SpecEntry

/-- An entry with the same name and descriptions under another id. -/
structure Renumbered (f : Int → Int) (e e' : SpecEntry) : Prop where
  name : e'.name = e.name
  id : e'.id = f e.id
  described : ∀ place : SpecSection, Value.field? place.describedBy e'.fields = Value.field? place.describedBy e.fields

/-- The descriptions of an entry are not its id. -/
theorem describedBy_ne_id (place : SpecSection) : place.describedBy ≠ "id" := by
  cases place with
  | operands role => exact (by decide : ("shape" : String) ≠ "id")
  | attributes => exact (by decide : ("type" : String) ≠ "id")

/-- A field that holds an entry is read alike once the entry is rearranged. -/
theorem ofField_reordered {place : SpecSection} {field field' : String × Value} {e : SpecEntry}
    (h : SameField (fun _ => EntryReordered f) field field') (hnames : (field.2.fields.map Prod.fst).Nodup)
    (hread : ofField place field = .ok e) : ∃ e', ofField place field' = .ok e' ∧ Renumbered f e e' := by
  obtain ⟨name, v⟩ := field
  obtain ⟨name', v'⟩ := field'
  obtain ⟨hname, h⟩ := h
  change name' = name at hname
  subst hname
  cases v with
  | object fields =>
    obtain ⟨fields', heq, h⟩ := h
    change v' = _ at heq
    subst heq
    have hid := Value.field?_rearranged h hnames "id"
    unfold ofField at hread
    dsimp only at hread
    split at hread
    · next id hfield =>
      simp only [hfield, ↓reduceIte] at hid
      obtain ⟨_, hid', rfl⟩ := option_some_of_rel hid
      cases hread
      refine ⟨⟨trim name', f id, fields'⟩, ?_, rfl, rfl, fun place' => ?_⟩
      · simp only [ofField, hid', Value.renumber]
      · have hrel := Value.field?_rearranged h hnames place'.describedBy
        simp only [describedBy_ne_id place', ↓reduceIte] at hrel
        exact option_eq_of_rel hrel
    · cases hread
  | _ => cases hread

/-- The entries of a section are checked one by one. -/
theorem ofFields_eq_mapM (place : SpecSection) (fields : List (String × Value)) :
    ofFields place fields = fields.mapM (ofField place) := by
  induction fields with
  | nil => rfl
  | cons field rest ih =>
    rw [ofFields, List.mapM_cons, ih]

/-- The entries of a section are those of the rearranged one under other ids. -/
theorem inSection_reordered {place : SpecSection} {fields fields' : List (String × Value)} {entries : List SpecEntry}
    (h : SpecReordered f (.object fields) (.object fields')) (hnames : NamesOnce (.object fields))
    (hread : inSection place fields = .ok entries) :
    ∃ entries', inSection place fields' = .ok entries' ∧ Rearranged (Renumbered f) entries entries' := by
  have hrel := Value.given?_section h hnames.here place
  unfold inSection at hread ⊢
  cases hgiven : Value.given? place.name fields with
  | none =>
    rw [hgiven] at hread hrel
    cases hread
    rw [option_none_of_rel hrel]
    exact ⟨[], rfl, [], List.Forall₂.nil, List.Perm.refl []⟩
  | some v =>
    rw [hgiven] at hread hrel
    cases v with
    | object inner =>
      obtain ⟨_, hgiven', inner', rfl, hinner⟩ := option_some_of_rel hrel
      have hmem : (place.name, Value.object inner) ∈ fields := by
        obtain ⟨before, after, rfl, _⟩ := List.lookup_eq_some_iff.mp (Option.filter_eq_some_iff.mp hgiven).1
        simp
      rw [hgiven']
      dsimp only at hread ⊢
      rw [ofFields_eq_mapM] at hread ⊢
      obtain ⟨entries', hentries', hrearranged⟩ := hinner.transport (except_mapM_eq_ok.mp hread)
        fun field hfield field' e hstep he => ofField_reordered hstep (hnames.entries _ hmem field hfield) he
      exact ⟨entries', except_mapM_eq_ok.mpr hentries', hrearranged⟩
    | _ => cases hread

/-- An operand is read alike from an entry under another id. -/
theorem toOperand_renumbered {role : Role} {e e' : SpecEntry} {p : Operand} (h : Renumbered f e e')
    (hread : (toOperand role e).outcome = .ok p) : (toOperand role e').outcome = .ok (p.renumber f) := by
  obtain ⟨tokens, htokens, hread⟩ := Traced.outcome_bind_eq_ok.mp hread
  obtain ⟨shape, hshape, hread⟩ := Traced.outcome_bind_eq_ok.mp hread
  cases hread
  apply Traced.outcome_bind_eq_ok.mpr
  refine ⟨tokens, ?_, ?_⟩
  · change description (.operands role) e' = .ok tokens
    rw [description, h.described, h.name]
    exact htokens
  · rw [h.id, h.name]
    exact Traced.outcome_bind_eq_ok.mpr ⟨shape, hshape, rfl⟩

/-- An attribute is read alike from an entry under another id. -/
theorem toAttribute_renumbered {e e' : SpecEntry} {a : Attribute} (h : Renumbered f e e')
    (hread : (toAttribute e).outcome = .ok a) : (toAttribute e').outcome = .ok (a.renumber f) := by
  obtain ⟨expression, hexpression, hread⟩ := except_bind_eq_ok.mp hread
  obtain ⟨type, htype, hread⟩ := except_bind_eq_ok.mp hread
  cases hread
  apply except_bind_eq_ok.mpr
  refine ⟨expression, ?_, ?_⟩
  · rw [description, h.described, h.name]
    exact hexpression
  · rw [h.id, h.name]
    exact except_bind_eq_ok.mpr ⟨type, htype, rfl⟩

end SpecEntry

/-! ## The operator -/

/-- Computations over a rearranged row give rearranged results. -/
theorem Rearranged.forEach {α β γ δ : Type} {R : α → β → Prop} {S : γ → δ → Prop} {g : α → Traced γ}
    {g' : β → Traced δ} {l : List α} {l' : List β} {cs : List γ} (h : Rearranged R l l')
    (hread : (Traced.forEach g l).outcome = .ok cs)
    (hstep : ∀ a b c, R a b → (g a).outcome = .ok c → ∃ d, (g' b).outcome = .ok d ∧ S c d) :
    ∃ ds, (Traced.forEach g' l').outcome = .ok ds ∧ Rearranged S cs ds := by
  obtain ⟨ds, hds, hrearranged⟩ := h.transport (Traced.outcome_forEach_eq_ok.mp hread) fun a _ => hstep a
  exact ⟨ds, Traced.outcome_forEach_eq_ok.mpr hds, hrearranged⟩

namespace Operator

/-- The operands of a role are those of the rearranged specification under other ids. -/
theorem readOperands_reordered {role : Role} {fields fields' : List (String × Value)} {ps : List Operand}
    (h : SpecReordered f (.object fields) (.object fields')) (hnames : NamesOnce (.object fields))
    (hread : (readOperands fields role).outcome = .ok ps) :
    ∃ ps', (readOperands fields' role).outcome = .ok ps' ∧ Rearranged (fun p p' => p.renumber f = p') ps ps' := by
  obtain ⟨entries, hentries, hread⟩ := Traced.outcome_bind_eq_ok.mp hread
  obtain ⟨entries', hentries', hrearranged⟩ := SpecEntry.inSection_reordered h hnames hentries
  obtain ⟨ps', hps', hperm⟩ := hrearranged.forEach hread fun e e' p he hp =>
    ⟨p.renumber f, SpecEntry.toOperand_renumbered he hp, rfl⟩
  exact ⟨ps', Traced.outcome_bind_eq_ok.mpr ⟨entries', hentries', hps'⟩, hperm⟩

/-- The attributes are those of the rearranged specification under other ids. -/
theorem readAttributes_reordered {fields fields' : List (String × Value)} {entries : List SpecEntry}
    {attributes : List Attribute} (h : SpecReordered f (.object fields) (.object fields'))
    (hnames : NamesOnce (.object fields)) (hentries : SpecEntry.inSection .attributes fields = .ok entries)
    (hread : (Traced.forEach SpecEntry.toAttribute entries).outcome = .ok attributes) :
    ∃ entries' attributes', SpecEntry.inSection .attributes fields' = .ok entries' ∧
      (Traced.forEach SpecEntry.toAttribute entries').outcome = .ok attributes' ∧
        Rearranged (fun a a' => a.renumber f = a') attributes attributes' := by
  obtain ⟨entries', hentries', hrearranged⟩ := SpecEntry.inSection_reordered h hnames hentries
  obtain ⟨attributes', hattributes', hperm⟩ := hrearranged.forEach hread fun e e' a he ha =>
    ⟨a.renumber f, SpecEntry.toAttribute_renumbered he ha, rfl⟩
  exact ⟨entries', attributes', hentries', hattributes', hperm⟩

/-- The settings of an operator are not sections. -/
theorem sectionName_ne (field : String) (hfield : field ∈ ["opName", "fnName", "device"]) (place : SpecSection) :
    place.name ≠ field := by
  revert field
  cases place with
  | operands role => cases role <;> decide
  | attributes => decide

/-- The fields of a rearranged specification describe the operator under other ids. -/
theorem readFields_reordered {fields fields' : List (String × Value)} {default : String} {o : Operator}
    (hf : KeepsOrder f) (h : SpecReordered f (.object fields) (.object fields'))
    (hnames : NamesOnce (.object fields)) (hread : (readFields fields default).outcome = .ok o) :
    ∃ o', (readFields fields' default).outcome = .ok o' ∧ Renumbered f o o' := by
  have hsetting {field : String} (hfield : field ∈ ["opName", "fnName", "device"]) :
      Value.given? field fields' = Value.given? field fields :=
    Value.given?_setting h hnames.here (sectionName_ne field hfield)
  unfold readFields at hread ⊢
  simp only [Traced.outcome_bind_eq_ok, Traced.outcome_ofExcept, validate_eq_ok_iff] at hread ⊢
  obtain ⟨operands, hoperands, entries, hentries, attributes, hattributes, name, hname, function, hfunction, hflaw,
    rfl⟩ := hread
  obtain ⟨operands', hoperands', hperm⟩ :=
    forall₂_transport (List.forall₂_same.mpr fun role _ => (rfl : role = role))
      (Traced.outcome_forEach_eq_ok.mp hoperands) fun role _ role' ps heq hps =>
        readOperands_reordered h hnames (heq ▸ hps)
  obtain ⟨entries', attributes', hentries', hattributes', hperm'⟩ :=
    readAttributes_reordered h hnames hentries hattributes
  have hrenumbered : Renumbered f
      { name := pascalCase name
        function := snakeCase function
        operands := operands.flatten
        attributes
        device := (Value.given? "device" fields).getD (.string defaultDevice) }
      { name := pascalCase name
        function := snakeCase function
        operands := operands'.flatten
        attributes := attributes'
        device := (Value.given? "device" fields').getD (.string defaultDevice) } :=
    { name := rfl
      function := rfl
      device := by rw [hsetting (by decide)]
      operands := (Rearranged.flatten hperm).map_perm
      attributes := hperm'.map_perm }
  have hname' : nameIn "opName" default fields' = .ok name := by
    rw [nameIn, hsetting (by decide)]
    exact hname
  have hfunction' : nameIn "fnName" default fields' = .ok function := by
    rw [nameIn, hsetting (by decide)]
    exact hfunction
  exact ⟨_, ⟨operands', Traced.outcome_forEach_eq_ok.mpr hoperands', entries', hentries', attributes', hattributes',
    name, hname', function, hfunction', hrenumbered.flaw?_eq_none hf hflaw, rfl⟩, hrenumbered⟩

/-- A rearranged specification describes the operator under other ids. -/
theorem read_reordered {d d' : Value} {default : String} {o : Operator} (hf : KeepsOrder f)
    (h : SpecReordered f d d') (hnames : NamesOnce d) (hread : (read d default).outcome = .ok o) :
    ∃ o', (read d' default).outcome = .ok o' ∧ Renumbered f o o' := by
  cases d with
  | object fields =>
    obtain ⟨fields', rfl, hfields⟩ := h
    exact readFields_reordered hf ⟨fields', rfl, hfields⟩ hnames hread
  | _ => cases hread

/-- An operator that has been read has no flaw. -/
theorem flaw?_of_read {d : Value} {default : String} {o : Operator} (hread : (read d default).outcome = .ok o) :
    o.flaw? = none := by
  cases d with
  | object fields =>
    change (readFields fields default).outcome = .ok o at hread
    unfold readFields at hread
    simp only [Traced.outcome_bind_eq_ok, Traced.outcome_ofExcept, validate_eq_ok_iff] at hread
    obtain ⟨_, _, _, _, _, _, _, _, _, _, hflaw, rfl⟩ := hread
    exact hflaw
  | _ => cases hread

/-- A kernel depends on the entries of its specification and on how their ids compare: in any order of the fields and
entries, and under any ids in the same order, the specification is accepted and renders the same. -/
theorem render_of_reordered (d : Value) (hnames : NamesOnce d) (default : String) :
    (∀ o, (read d default).outcome = .ok o → ∀ f, KeepsOrder f → ∀ d', SpecReordered f d d' →
      ∃ o', (read d' default).outcome = .ok o' ∧ ∀ options, o'.render options = o.render options) ∧
    ((∃ o, (read d default).outcome = .ok o) ↔
      ∀ f, KeepsOrder f → ∀ d', SpecReordered f d d' → ∃ o', (read d' default).outcome = .ok o') := by
  constructor
  · intro o hread f hf d' h
    obtain ⟨o', hread', hrenumbered⟩ := read_reordered hf h hnames hread
    exact ⟨o', hread', hrenumbered.render_eq hf (flaw?_of_read hread)⟩
  · constructor
    · rintro ⟨o, hread⟩ f hf d' h
      obtain ⟨o', hread', _⟩ := read_reordered hf h hnames hread
      exact ⟨o', hread'⟩
    · intro h
      exact h id (fun _ _ hab => hab) d (Value.specReordered_refl d)

/-! ## Two listings of one operator -/

/-- A scaled difference of images, with the second image and its id first. -/
def differenceSpec : Value :=
  .object [
    ("inputs", .object [
      ("right", .object [("id", .int 1), ("shape", .array [.string "none", .string "none", .string "CV_8UC3"])]),
      ("left", .object [("id", .int 0), ("shape", .array [.string "none", .string "none", .string "CV_8UC3"])])]),
    ("attributes", .object [("scale", .object [("id", .int 2), ("type", .string "float = 0.5")])])]

/-- The same with the images in order, the attribute first, and the ids 2, 5 and 8. -/
def differenceSpecInOrder : Value :=
  .object [
    ("attributes", .object [("scale", .object [("id", .int 8), ("type", .string "float = 0.5")])]),
    ("inputs", .object [
      ("left", .object [("id", .int 2), ("shape", .array [.string "none", .string "none", .string "CV_8UC3"])]),
      ("right", .object [("shape", .array [.string "none", .string "none", .string "CV_8UC3"]), ("id", .int 5)])])]

/-- The second listing is a rearrangement of the first. -/
theorem differenceSpec_reordered : SpecReordered (fun n => 3 * n + 2) differenceSpec differenceSpecInOrder := by
  have hid {id : Int} : SameField (fun name v w => w = if name = "id" then v.renumber (fun n => 3 * n + 2) else v)
      ("id", .int id) ("id", .int (3 * id + 2)) := ⟨rfl, rfl⟩
  have hother {name : String} {v : Value} (hname : name ≠ "id") :
      SameField (fun name v w => w = if name = "id" then v.renumber (fun n => 3 * n + 2) else v)
        (name, v) (name, v) := ⟨rfl, (if_neg hname).symm⟩
  refine ⟨_, rfl, Rearranged.swap ⟨rfl, fun _ => ?_, fun h => absurd rfl (h (.operands .input))⟩
    ⟨rfl, fun _ => ?_, fun h => absurd rfl (h .attributes)⟩⟩
  · refine ⟨_, rfl, Rearranged.swap ⟨rfl, _, rfl, ?_⟩ ⟨rfl, _, rfl, ?_⟩⟩
    · exact Rearranged.swap hid (hother (by decide))
    · exact Rearranged.inPlace (.cons hid (.cons (hother (by decide)) .nil))
  · refine ⟨_, rfl, Rearranged.inPlace (.cons ⟨rfl, _, rfl, ?_⟩ .nil)⟩
    exact Rearranged.inPlace (.cons hid (.cons (hother (by decide)) .nil))

/-- Both listings of the difference of images are accepted and render the same. -/
theorem render_of_reordered_difference :
    ∃ o o', (read differenceSpec "Difference").outcome = .ok o ∧
      (read differenceSpecInOrder "Difference").outcome = .ok o' ∧ ∀ options, o'.render options = o.render options := by
  have hnames : NamesOnce differenceSpec :=
    { here := by decide
      entries := by
        simp only [differenceSpec, Value.fields, List.forall_mem_cons]
        decide }
  have horder : KeepsOrder fun n : Int => 3 * n + 2 := by
    intro a b hab
    dsimp only
    omega
  have hread : (read differenceSpec "Difference").outcome.isOk = true := by rfl
  cases houtcome : (read differenceSpec "Difference").outcome with
  | error e =>
    rw [houtcome] at hread
    cases hread
  | ok o =>
    obtain ⟨o', hread', hrender⟩ := (render_of_reordered differenceSpec hnames "Difference").1 o houtcome _ horder
      differenceSpecInOrder differenceSpec_reordered
    exact ⟨o, o', rfl, hread', hrender⟩

end Operator

end TensorBridge
