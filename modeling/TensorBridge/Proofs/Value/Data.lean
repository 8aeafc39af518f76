import Mathlib.Data.List.Nodup
import Mathlib.Data.List.TakeWhile
import Mathlib.Tactic.SplitIfs
import TensorBridge.Proofs.Computation
import TensorBridge.Proofs.Operator.Rearranged
import TensorBridge.Proofs.Text.Numerals
import TensorBridge.Value.Reader

/-!
# What a data file can hold

A field that is set again keeps its place, so no object of a data file has a name twice; and a numeral of too many
digits stops the reading, so every whole number has a numeral that can be written again. This holds of every value
inside one that is read, and in particular of a specification and of its entries.
-/

namespace TensorBridge.Value

/-- Values that a data file can hold: whole numbers are within the bound on their numerals, and no object, however deep,
has a name twice. -/
inductive IsDatum : Value → Prop
  | null : IsDatum .null
  | bool (b : Bool) : IsDatum (.bool b)
  | int {n : Int} (hn : n.natAbs < 10 ^ maxNumeralDigits) : IsDatum (.int n)
  | float (x : Double) : IsDatum (.float x)
  | string (s : String) : IsDatum (.string s)
  | array {items : List Value} (hitems : ∀ item ∈ items, IsDatum item) : IsDatum (.array items)
  | object {fields : List (String × Value)} (hnames : (fields.map Prod.fst).Nodup)
      (hvalues : ∀ field ∈ fields, IsDatum field.2) : IsDatum (.object fields)

namespace IsDatum

/-- The fields of such a value have distinct names. -/
theorem fields_nodup {v : Value} (h : v.IsDatum) : (v.fields.map Prod.fst).Nodup := by
  cases h with
  | object hnames _ => exact hnames
  | _ => exact List.nodup_nil

/-- The values of its fields are such values. -/
theorem of_mem_fields {v : Value} (h : v.IsDatum) : ∀ field ∈ v.fields, field.2.IsDatum := by
  cases h with
  | object _ hvalues => exact hvalues
  | _ => exact List.forall_mem_nil _

/-- The value of one of its fields is such a value. -/
theorem of_field? {fields : List (String × Value)} (h : IsDatum (.object fields)) {name : String} {v : Value}
    (hfield : field? name fields = some v) : v.IsDatum := by
  obtain ⟨front, back, rfl, _⟩ := List.lookup_eq_some_iff.mp hfield
  exact h.of_mem_fields (name, v) (List.mem_append_right front List.mem_cons_self)

/-- A specification that a data file can hold names everything once. -/
theorem namesOnce {v : Value} (h : v.IsDatum) : v.NamesOnce where
  here := h.fields_nodup
  entries := fun s hs e he => ((h.of_mem_fields s hs).of_mem_fields e he).fields_nodup

end IsDatum

/-! ## Fields -/

/-- Setting a field adds no name but its own. -/
theorem mem_names_setField {name other : String} {value : Value} {fields : List (String × Value)} :
    other ∈ (setField name value fields).map Prod.fst ↔ other = name ∨ other ∈ fields.map Prod.fst := by
  induction fields with
  | nil => simp [setField]
  | cons field rest ih =>
    obtain ⟨first, old⟩ := field
    unfold setField
    split
    · next heq => simp [heq]
    · rw [List.map_cons, List.map_cons, List.mem_cons, List.mem_cons, ih]
      exact or_left_comm

/-- Setting a field keeps the names distinct. -/
theorem nodup_names_setField {fields : List (String × Value)} (h : (fields.map Prod.fst).Nodup) (name : String)
    (value : Value) : ((setField name value fields).map Prod.fst).Nodup := by
  induction fields with
  | nil => simp [setField]
  | cons field rest ih =>
    obtain ⟨first, old⟩ := field
    rw [List.map_cons, List.nodup_cons] at h
    unfold setField
    split
    · next heq =>
      rw [List.map_cons, List.nodup_cons, ← heq]
      exact h
    · next hne =>
      rw [List.map_cons, List.nodup_cons, mem_names_setField]
      exact ⟨fun hmem => hmem.elim hne h.1, ih h.2⟩

/-- Setting a field keeps a condition on all values that the new one meets. -/
theorem forall_mem_setField {P : Value → Prop} {fields : List (String × Value)} (h : ∀ field ∈ fields, P field.2)
    (name : String) {value : Value} (hvalue : P value) : ∀ field ∈ setField name value fields, P field.2 := by
  induction fields with
  | nil => exact List.forall_mem_singleton.mpr hvalue
  | cons field rest ih =>
    obtain ⟨hfield, hrest⟩ := List.forall_mem_cons.mp h
    unfold setField
    split
    · exact List.forall_mem_cons.mpr ⟨hvalue, hrest⟩
    · exact List.forall_mem_cons.mpr ⟨hfield, ih hrest⟩

/-! ## Atoms -/

/-- The digits of a whole number are digits. -/
theorem isDigit_of_mem_wholeDigits {cs : List Char} : ∀ c ∈ wholeDigits cs, c.isDigit = true := by
  intro c hc
  unfold wholeDigits at hc
  split at hc
  · rw [List.mem_singleton.mp hc]
    rfl
  · exact List.mem_takeWhile_imp hc

/-- Digits of ASCII write what they write as digits of any script. -/
theorem asciiValue_eq_numeralValue {digits : List Char} (h : ∀ c ∈ digits, c.isDigit = true) :
    asciiValue digits = numeralValue digits := by
  refine List.foldl_ext _ _ 0 fun n c hc => ?_
  have hdigit := h c hc
  rw [Char.isDigit, Bool.and_eq_true, decide_eq_true_eq, decide_eq_true_eq] at hdigit
  rw [digitValue?_ascii hdigit.1 hdigit.2]
  rfl

/-- A whole number of no more digits than it may have is within the bound. -/
theorem asciiValue_wholeDigits_lt {cs : List Char} (h : ¬ maxNumeralDigits < (wholeDigits cs).length) :
    asciiValue (wholeDigits cs) < 10 ^ maxNumeralDigits := by
  rw [asciiValue_eq_numeralValue isDigit_of_mem_wholeDigits]
  exact numeralValue_lt_of_length_le (Nat.not_lt.mp h)

/-- A word stands for a value that a data file can hold. -/
theorem isDatum_of_readWord? {cs rest : List Char} {v : Value} (h : readWord? cs = some (v, rest)) : v.IsDatum := by
  obtain ⟨⟨word, value⟩, hword, hafter⟩ := List.exists_of_findSome?_eq_some h
  obtain ⟨_, _, heq⟩ := Option.map_eq_some_iff.mp hafter
  cases heq
  simp only [wordValues, List.mem_cons, List.not_mem_nil, Prod.mk.injEq, or_false] at hword
  rcases hword with ⟨_, rfl⟩ | ⟨_, rfl⟩ | ⟨_, rfl⟩ | ⟨_, rfl⟩ | ⟨_, rfl⟩ | ⟨_, rfl⟩ <;> constructor

/-- A number is one that a data file can hold. -/
theorem isDatum_of_readNumber {cs rest : List Char} {v : Value} (h : readNumber cs = .ok (v, rest)) : v.IsDatum := by
  unfold readNumber at h
  dsimp only at h
  split_ifs at h with _ _ hlong _
  all_goals cases h
  · refine .int ?_
    rw [Int.natAbs_neg]
    exact asciiValue_wholeDigits_lt hlong
  · exact .int (asciiValue_wholeDigits_lt hlong)
  · exact .float _

/-! ## Values -/

/-- With some fuel, every value that is read is one that a data file can hold. -/
structure ReadsData (fuel : Nat) : Prop where
  value : ∀ depth cs v rest, readValue fuel depth cs = .ok (v, rest) → v.IsDatum
  items : ∀ depth read cs v rest, (∀ item ∈ read, item.IsDatum) →
    readItems fuel depth read cs = .ok (v, rest) → v.IsDatum
  fields : ∀ depth read cs v rest, (read.map Prod.fst).Nodup → (∀ field ∈ read, field.2.IsDatum) →
    readFields fuel depth read cs = .ok (v, rest) → v.IsDatum

section Step

variable {fuel depth : Nat} {cs rest : List Char} {v : Value}

/-- A value is read with one more step. -/
theorem ReadsData.value_succ (ih : ReadsData fuel) (h : readValue (fuel + 1) depth cs = .ok (v, rest)) :
    v.IsDatum := by
  unfold readValue at h
  split at h
  · obtain ⟨found, _, heq⟩ := except_map_eq_ok.mp h
    cases heq
    exact .string _
  · split at h
    · cases h
    · cases h
      exact .array (List.forall_mem_nil _)
    · exact ih.items _ [] _ _ _ (List.forall_mem_nil _) h
  · split at h
    · cases h
    · cases h
      exact .object List.nodup_nil (List.forall_mem_nil _)
    · exact ih.fields _ [] _ _ _ List.nodup_nil (List.forall_mem_nil _) h
  · split at h
    · next found hword =>
      cases h
      exact isDatum_of_readWord? hword
    · exact isDatum_of_readNumber h

/-- Items are read with one more step. -/
theorem ReadsData.items_succ (ih : ReadsData fuel) {read : List Value} (hread : ∀ item ∈ read, item.IsDatum)
    (h : readItems (fuel + 1) depth read cs = .ok (v, rest)) : v.IsDatum := by
  unfold readItems at h
  split at h
  · cases h
  · next item _ hitem =>
    have hread' : ∀ x ∈ item :: read, x.IsDatum :=
      List.forall_mem_cons.mpr ⟨ih.value _ _ _ _ hitem, hread⟩
    split at h
    · exact ih.items _ _ _ _ _ hread' h
    · cases h
      exact .array fun x hx => hread' x (List.mem_reverse.mp hx)
    · cases h

/-- Fields are read with one more step. -/
theorem ReadsData.fields_succ (ih : ReadsData fuel) {read : List (String × Value)}
    (hnames : (read.map Prod.fst).Nodup) (hvalues : ∀ field ∈ read, field.2.IsDatum)
    (h : readFields (fuel + 1) depth read cs = .ok (v, rest)) : v.IsDatum := by
  unfold readFields at h
  split at h
  · cases h
  · next name _ _ =>
    split at h
    · cases h
    · next value _ hvalue =>
      have hnames' := nodup_names_setField hnames name value
      have hvalues' := forall_mem_setField hvalues name (ih.value _ _ _ _ hvalue)
      split at h
      · exact ih.fields _ _ _ _ _ hnames' hvalues' h
      · cases h
        exact .object hnames' hvalues'
      · cases h

end Step

/-- Every value that is read is one that a data file can hold. -/
theorem readsData (fuel : Nat) : ReadsData fuel := by
  induction fuel with
  | zero => exact ⟨nofun, nofun, nofun⟩
  | succ fuel ih =>
    constructor
    · exact fun _ _ _ _ => ih.value_succ
    · exact fun _ _ _ _ _ => ih.items_succ
    · exact fun _ _ _ _ _ => ih.fields_succ

/-- The value of a text is one that a data file can hold. -/
theorem isDatum_of_ofText {text : String} {v : Value} (h : ofText text = .ok v) : v.IsDatum := by
  unfold ofText at h
  split at h
  · cases h
  · dsimp only at h
    split at h
    · cases h
    · next hread =>
      split at h
      · cases h
        exact (readsData _).value _ _ _ _ hread
      · cases h

end TensorBridge.Value
