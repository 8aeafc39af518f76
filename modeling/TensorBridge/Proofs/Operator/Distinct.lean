import Mathlib.Data.List.Nodup
import TensorBridge.Kernel.Source
import TensorBridge.Operator.Reader
import TensorBridge.Proofs.Shape.Accepted

/-!
# Distinct ids

The operands and attributes of an operator that has passed its checks have distinct ids and distinct names.
Sorting by distinct keys leaves no choice: the result depends on the items and on how their keys compare, and
not on the order in which they came.
-/

namespace TensorBridge

/-- Keys that compare as before once they are replaced. -/
def KeepsOrder (f : Int → Int) : Prop := ∀ a b, a < b → f a < f b

/-- Different keys stay different. -/
theorem KeepsOrder.injective {f : Int → Int} (hf : KeepsOrder f) : Function.Injective f := by
  intro a b heq
  rcases Int.lt_trichotomy a b with hab | hab | hab
  · exact absurd heq (Int.ne_of_lt (hf a b hab))
  · exact hab
  · exact absurd heq.symm (Int.ne_of_lt (hf b a hab))

/-! ## Sorting by distinct keys -/

/-- Items with distinct keys are in the strict order of their keys once they are sorted. -/
theorem sortBy_strict {α : Type} {key : α → Int} {l : List α} (hdistinct : (l.map key).Nodup) :
    (sortBy key l).Pairwise fun x y => key x < key y := by
  have hsorted : ((sortBy key l).map key).Nodup := ((sortBy_perm key l).map key).nodup_iff.mpr hdistinct
  have hne : (sortBy key l).Pairwise fun x y => key x ≠ key y := List.pairwise_map.mp hsorted
  exact (pairwise_sortBy key l).imp₂ (fun _ _ hle hne => Int.lt_iff_le_and_ne.mpr ⟨hle, hne⟩) hne

/-- Items that are carried over in another order, with keys that compare as before, are sorted alike. -/
theorem sortBy_eq_map {α β : Type} {key : α → Int} {key' : β → Int} {f : Int → Int} (hf : KeepsOrder f)
    {g : α → β} (hkey : ∀ a, key' (g a) = f (key a)) {l : List α} {l' : List β}
    (hdistinct : (l.map key).Nodup) (hperm : (l.map g).Perm l') : sortBy key' l' = (sortBy key l).map g := by
  have hkeys : (l.map g).map key' = (l.map key).map f := by
    rw [List.map_map, List.map_map]
    exact List.map_congr_left fun a _ => hkey a
  have hdistinct' : (l'.map key').Nodup := by
    rw [← (hperm.map key').nodup_iff, hkeys]
    exact hdistinct.map hf.injective
  have hmapped : ((sortBy key l).map g).Pairwise fun x y => key' x < key' y := by
    apply List.pairwise_map.mpr
    apply (sortBy_strict hdistinct).imp
    intro a b hab
    rw [hkey, hkey]
    exact hf _ _ hab
  apply List.Perm.eq_of_pairwise _ (sortBy_strict hdistinct') hmapped
  · exact (sortBy_perm key' l').trans (hperm.symm.trans ((sortBy_perm key l).map g).symm)
  · intro a b _ _ hab hba
    exact absurd hba (Int.lt_asymm hab)

namespace Operator

/-! ## The checks of an operator -/

/-- An id is not found among some items exactly if none of them has it. -/
theorem lookup_eq_none_iff_not_mem {items : List (Int × String)} {id : Int} :
    items.lookup id = none ↔ id ∉ items.map Prod.fst := by
  rw [List.lookup_eq_none_iff, List.mem_map]
  constructor
  · rintro h ⟨x, hx, heq⟩
    exact bne_iff_ne.mp (h x hx) heq.symm
  · intro h x hx
    exact bne_iff_ne.mpr fun heq => h ⟨x, hx, heq.symm⟩

/-- A name is found among some items if one of them has it. -/
theorem any_name_iff {items : List (Int × String)} {name : String} :
    (items.any fun x => x.2 == name) = true ↔ name ∈ items.map Prod.snd := by
  rw [List.any_eq_true, List.mem_map]
  exact exists_congr fun x => and_congr_right fun _ => beq_iff_eq

/-- One item passes if no earlier one has its id or its name. -/
theorem clash?_cons_eq_none_iff (earlier rest : List (Int × String)) (item : Int × String) :
    clash? earlier (item :: rest) = none ↔
      item.1 ∉ earlier.map Prod.fst ∧ item.2 ∉ earlier.map Prod.snd ∧ clash? (item :: earlier) rest = none := by
  rw [clash?]
  split
  · next first hfirst =>
    have hmem : item.1 ∈ earlier.map Prod.fst := by
      by_contra hnot
      rw [lookup_eq_none_iff_not_mem.mpr hnot] at hfirst
      cases hfirst
    simp only [reduceCtorEq, hmem, not_true_eq_false, false_and]
  · next hnone =>
    rw [← any_name_iff]
    split
    · next hany => simp only [reduceCtorEq, hany, not_true_eq_false, false_and, and_false]
    · next hany =>
      simp only [lookup_eq_none_iff_not_mem.mp hnone, hany, Bool.false_eq_true, not_false_eq_true, true_and]

/-- Items pass if their ids and names are distinct and none of them is among the earlier ones. -/
theorem clash?_eq_none_iff (earlier items : List (Int × String)) :
    clash? earlier items = none ↔
      (items.map Prod.fst).Nodup ∧ (items.map Prod.snd).Nodup ∧
        ∀ x ∈ items, x.1 ∉ earlier.map Prod.fst ∧ x.2 ∉ earlier.map Prod.snd := by
  induction items generalizing earlier with
  | nil => simp [clash?]
  | cons item rest ih =>
    rw [clash?_cons_eq_none_iff, ih]
    simp only [List.map_cons, List.nodup_cons, List.forall_mem_cons]
    simp only [List.mem_cons, not_or]
    constructor
    · rintro ⟨hid, hname, hids, hnames, hrest⟩
      refine ⟨⟨?_, hids⟩, ⟨?_, hnames⟩, ⟨hid, hname⟩, fun x hx => ⟨(hrest x hx).1.2, (hrest x hx).2.2⟩⟩
      · intro hmem
        obtain ⟨x, hx, heq⟩ := List.mem_map.mp hmem
        exact (hrest x hx).1.1 heq
      · intro hmem
        obtain ⟨x, hx, heq⟩ := List.mem_map.mp hmem
        exact (hrest x hx).2.1 heq
    · rintro ⟨⟨hid, hids⟩, ⟨hname, hnames⟩, ⟨hid', hname'⟩, hrest⟩
      refine ⟨hid', hname', hids, hnames, fun x hx => ⟨⟨?_, (hrest x hx).1⟩, ⟨?_, (hrest x hx).2⟩⟩⟩
      · intro heq
        exact hid (List.mem_map.mpr ⟨x, hx, heq⟩)
      · intro heq
        exact hname (List.mem_map.mpr ⟨x, hx, heq⟩)

/-- An operator has no flaw if its name starts with a capital, its function has a name, and no item clashes with
another. -/
theorem flaw?_eq_none_iff {o : Operator} :
    o.flaw? = none ↔ (∃ c rest, o.name.toList = c :: rest ∧ isUppercase c = true) ∧
      o.function.isEmpty = false ∧ clash? [] o.items = none := by
  unfold flaw?
  cases o.name.toList with
  | nil => simp
  | cons c rest =>
    simp only [List.cons.injEq, Bool.not_eq_true']
    split
    · next hcapital => simp [hcapital]
    · next hcapital =>
      rw [Bool.not_eq_false] at hcapital
      cases o.function.isEmpty <;> simp [hcapital]

/-- The ids of an operator without a flaw are distinct, and so are its names. -/
theorem items_nodup {o : Operator} (h : o.flaw? = none) :
    (o.items.map Prod.fst).Nodup ∧ (o.items.map Prod.snd).Nodup := by
  obtain ⟨_, _, hclash⟩ := flaw?_eq_none_iff.mp h
  obtain ⟨hids, hnames, _⟩ := (clash?_eq_none_iff [] o.items).mp hclash
  exact ⟨hids, hnames⟩

/-- The flaws of an operator depend on its name, on that of its function, and on whether ids or names repeat. -/
theorem flaw?_eq_none_of_items {o o' : Operator} (h : o.flaw? = none) (hname : o'.name = o.name)
    (hfunction : o'.function = o.function)
    (hitems : (o'.items.map Prod.fst).Nodup ∧ (o'.items.map Prod.snd).Nodup) : o'.flaw? = none := by
  obtain ⟨hcapital, hnamed, _⟩ := flaw?_eq_none_iff.mp h
  have hclash : clash? [] o'.items = none := (clash?_eq_none_iff [] o'.items).mpr ⟨hitems.1, hitems.2, by simp⟩
  rw [flaw?_eq_none_iff, hname, hfunction]
  exact ⟨hcapital, hnamed, hclash⟩

/-- The ids of the operands of an operator without a flaw are distinct. -/
theorem operandIds_nodup {o : Operator} (h : o.flaw? = none) : (o.operands.map Operand.id).Nodup := by
  have hids := (items_nodup h).1
  rw [items, List.map_append, List.map_map] at hids
  exact (List.nodup_append.mp hids).1

/-- The ids of some of the operands are distinct as well. -/
theorem filterIds_nodup {o : Operator} (h : o.flaw? = none) (chosen : Operand → Bool) :
    ((o.operands.filter chosen).map Operand.id).Nodup :=
  (List.filter_sublist.map Operand.id).nodup (operandIds_nodup h)

/-- The ids of the attributes of an operator without a flaw are distinct. -/
theorem attributeIds_nodup {o : Operator} (h : o.flaw? = none) : (o.attributes.map Attribute.id).Nodup := by
  have hids := (items_nodup h).1
  rw [items, List.map_append, List.map_map, List.map_map] at hids
  exact (List.nodup_append.mp hids).2.1

/-- The arguments of the call have the ids of the operands and attributes. -/
theorem argumentIds_perm (o : Operator) : (o.arguments.map Prod.fst).Perm (o.items.map Prod.fst) := by
  have hattributes := (sortBy_perm Attribute.id o.attributes).map Attribute.id
  rw [arguments, items, List.map_append, List.map_append, List.map_map, List.map_map, List.map_map, List.map_map]
  exact (List.Perm.refl _).append hattributes

/-- The ids of the arguments of an operator without a flaw are distinct. -/
theorem argumentIds_nodup {o : Operator} (h : o.flaw? = none) : (o.arguments.map Prod.fst).Nodup :=
  (argumentIds_perm o).nodup_iff.mpr (items_nodup h).1

/-- The checks pass an operator unchanged if it has no flaw, and no other. -/
theorem validate_eq_ok_iff {o o' : Operator} : o.validate = .ok o' ↔ o.flaw? = none ∧ o' = o := by
  unfold validate
  split
  · next flaw hflaw => cases hmessage : flaw.hasMessage <;> simp [hflaw, refuse]
  · next hflaw => simp [hflaw, eq_comm]

/-- The checks break off exactly at a flaw without a message. -/
theorem validate_eq_fault_iff {o : Operator} {f : Fault} :
    o.validate = .error (.fault f) ↔
      f = .numeralTooLong ∧ ∃ flaw, o.flaw? = some flaw ∧ flaw.hasMessage = false := by
  unfold validate
  cases o.flaw? with
  | none => simp
  | some flaw =>
    cases hmessage : flaw.hasMessage with
    | true => simp [hmessage, refuse]
    | false => simp [hmessage, @eq_comm _ f]

end Operator

end TensorBridge
