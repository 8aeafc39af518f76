import TensorBridge.Proofs.Operator.Faults
import TensorBridge.Proofs.Operator.FirstRepeat
import TensorBridge.Proofs.Value.Data

/-!
# Specification files

The data of a specification that comes from a file meet the conditions under which specifications are compared and
checked. They have every name once, so the kernel does not depend on the order in which the file lists them. Their
numbers are within the bound on numerals, so the message about a repeated id can always be written, and one of the three
ways to a fault is closed.
-/

namespace TensorBridge

open Value (SpecReordered)

namespace SpecEntry

/-- The id of an entry is a number of the data. -/
theorem id_lt_of_inSection {place : SpecSection} {fields : List (String × Value)} {entries : List SpecEntry}
    (hdata : Value.IsDatum (.object fields)) (h : inSection place fields = .ok entries) :
    ∀ e ∈ entries, e.id.natAbs < 10 ^ maxNumeralDigits := by
  unfold inSection at h
  split at h
  · cases h
    exact List.forall_mem_nil _
  · next listed hlisted =>
    have hsection : Value.IsDatum (.object listed) := hdata.of_field? (Option.filter_eq_some_iff.mp hlisted).1
    rw [ofFields_eq_mapM] at h
    refine except_mapM_forall h fun field hfield e he => ?_
    have hentry := hsection.of_mem_fields field hfield
    unfold ofField at he
    split at he
    · next own hown =>
      rw [hown] at hentry
      split at he
      · next id hid =>
        cases he
        cases hentry.of_field? hid with
        | int hn => exact hn
      · cases he
    · cases he
  · cases h

end SpecEntry

namespace Operator

variable {fields : List (String × Value)} {default : String} {o : Operator}

/-- The ids of the operands of a role are numbers of the data. -/
theorem id_lt_of_readOperands {role : Role} {ps : List Operand} (hdata : Value.IsDatum (.object fields))
    (h : (readOperands fields role).outcome = .ok ps) : ∀ p ∈ ps, p.id.natAbs < 10 ^ maxNumeralDigits := by
  obtain ⟨entries, hentries, hread⟩ := Traced.outcome_bind_eq_ok.mp h
  rw [Traced.outcome_forEach] at hread
  refine except_mapM_forall hread fun e he p hp => ?_
  obtain ⟨tokens, _, hp⟩ := Traced.outcome_bind_eq_ok.mp hp
  obtain ⟨shape, _, hp⟩ := Traced.outcome_bind_eq_ok.mp hp
  cases hp
  exact SpecEntry.id_lt_of_inSection hdata hentries e he

/-- The id of an attribute is a number of the data. -/
theorem id_lt_of_toAttribute {entries : List SpecEntry} {attributes : List Attribute}
    (hdata : Value.IsDatum (.object fields)) (hentries : SpecEntry.inSection .attributes fields = .ok entries)
    (h : (Traced.forEach SpecEntry.toAttribute entries).outcome = .ok attributes) :
    ∀ a ∈ attributes, a.id.natAbs < 10 ^ maxNumeralDigits := by
  rw [Traced.outcome_forEach] at h
  refine except_mapM_forall h fun e he a ha => ?_
  obtain ⟨expression, _, ha⟩ := except_bind_eq_ok.mp ha
  obtain ⟨type, _, ha⟩ := except_bind_eq_ok.mp ha
  cases ha
  exact SpecEntry.id_lt_of_inSection hdata hentries e he

/-- The ids of all items are numbers of the data. -/
theorem MakesUp.id_lt (h : MakesUp fields default o) (hdata : Value.IsDatum (.object fields)) :
    ∀ item ∈ o.items, item.1.natAbs < 10 ^ maxNumeralDigits := by
  obtain ⟨hgroups, hentries, hattributes, _, _⟩ := h
  rw [Traced.outcome_forEach] at hgroups
  intro item hitem
  rcases List.mem_append.mp hitem with hitem | hitem
  · obtain ⟨p, hp, rfl⟩ := List.mem_map.mp hitem
    obtain ⟨ps, hps, hmem⟩ := List.mem_flatten.mp hp
    exact except_mapM_forall hgroups (fun _ _ ps hps => id_lt_of_readOperands hdata hps) ps hps p hmem
  · obtain ⟨a, ha, rfl⟩ := List.mem_map.mp hitem
    exact id_lt_of_toAttribute hdata hentries hattributes a ha

variable {t t' : FileTree} {path path' text text' : String}

/-- Two files of one stem, of which the second lists the specification of the first in another order and under other ids
in the same order, describe operators whose kernels are the same. -/
theorem load_reordered {d d' : Value} {f : Int → Int} (htext : t.read path = .ok text)
    (hdata : Value.ofText text = .ok d) (htext' : t'.read path' = .ok text') (hdata' : Value.ofText text' = .ok d')
    (hstem : Path.stem path' = Path.stem path) (hf : KeepsOrder f) (h : SpecReordered f d d')
    (hload : (load t path).outcome = .ok o) :
    ∃ o', (load t' path').outcome = .ok o' ∧ ∀ options, o'.render options = o.render options := by
  rw [load_of_text htext hdata] at hload
  rw [load_of_text htext' hdata', hstem]
  obtain ⟨o', hread, hrenumbered⟩ := read_reordered hf h (Value.isDatum_of_ofText hdata).namesOnce hload
  exact ⟨o', hread, hrenumbered.render_eq hf (flaw?_of_read hload)⟩

/-- A specification file meets a fault in two ways only: by a long numeral in the first section that is not read, or by
a name that is no text after everything else has been read. -/
theorem load_eq_fault_iff {f : Fault} (htext : t.read path = .ok text)
    (hdata : Value.ofText text = .ok (.object fields)) :
    (load t path).outcome = .error (.fault f) ↔
      (f = .numeralTooLong ∧ StopsFirst (fun role => ∃ ps, (readOperands fields role).outcome = .ok ps)
        (SectionIsLong fields) Role.all) ∨
      (f = .nameNotText ∧ PartsAreRead fields ∧ ∃ field ∈ ["opName", "fnName"], NameIsNoText fields field) := by
  rw [load_of_text htext hdata]
  refine readFields_eq_fault_iff.trans ?_
  constructor
  · rintro (⟨hstop⟩ | ⟨hparts, field, hfield, hname⟩ | ⟨hmade, flaw, hflaw, hmessage⟩)
    · exact .inl ⟨rfl, hstop⟩
    · exact .inr ⟨rfl, hparts, field, hfield, hname⟩
    · have hwritable := hasMessage_of_flaw? hflaw (hmade.id_lt (Value.isDatum_of_ofText hdata))
      rw [hmessage] at hwritable
      cases hwritable
  · rintro (⟨rfl, hstop⟩ | ⟨rfl, hparts, field, hfield, hname⟩)
    · exact .numeral hstop
    · exact .name hparts field hfield hname

end Operator

end TensorBridge
