import Mathlib.Data.List.Nodup
import Mathlib.Data.List.Perm.Basic
import TensorBridge.Operator.Vocabulary
import TensorBridge.Value.Basic

/-!
# Rearranged specifications

A specification may list its fields, the entries of its sections and the fields of its entries in another order,
and give other ids to the entries. Rows are compared item by item after one of them has been put in another order;
objects are compared by their fields.
-/

namespace TensorBridge

/-- What is made of related items one by one is related. -/
theorem forall₂_transport {α β γ δ : Type} {R : α → β → Prop} {P : α → γ → Prop} {P' : β → δ → Prop}
    {S : γ → δ → Prop} {l : List α} {l' : List β} {cs : List γ} (h : List.Forall₂ R l l')
    (hmade : List.Forall₂ P l cs) (hstep : ∀ a ∈ l, ∀ b c, R a b → P a c → ∃ d, P' b d ∧ S c d) :
    ∃ ds, List.Forall₂ P' l' ds ∧ List.Forall₂ S cs ds := by
  induction h generalizing cs with
  | nil =>
    cases hmade
    exact ⟨[], List.Forall₂.nil, List.Forall₂.nil⟩
  | cons hab _ ih =>
    obtain ⟨c, cs', hc, hcs', rfl⟩ := List.forall₂_cons_left_iff.mp hmade
    obtain ⟨d, hd, hcd⟩ := hstep _ List.mem_cons_self _ _ hab hc
    obtain ⟨ds, hds, hcds⟩ := ih hcs' fun a ha => hstep a (List.mem_cons_of_mem _ ha)
    exact ⟨d :: ds, List.Forall₂.cons hd hds, List.Forall₂.cons hcd hcds⟩

/-- Rows whose items are related one by one, once one of the rows is put in another order. -/
def Rearranged {α β : Type} (R : α → β → Prop) (l : List α) (l' : List β) : Prop :=
  ∃ mid, List.Forall₂ R l mid ∧ mid.Perm l'

namespace Rearranged

variable {α β γ δ : Type} {R : α → β → Prop}

/-- Rows that are related in place. -/
theorem inPlace {l : List α} {l' : List β} (h : List.Forall₂ R l l') : Rearranged R l l' :=
  ⟨l', h, List.Perm.refl l'⟩

/-- Two items that change places. -/
theorem swap {a₁ a₂ : α} {b₁ b₂ : β} (h₁ : R a₁ b₁) (h₂ : R a₂ b₂) : Rearranged R [a₁, a₂] [b₂, b₁] :=
  ⟨[b₁, b₂], .cons h₁ (.cons h₂ .nil), List.Perm.swap b₂ b₁ []⟩

/-- Items that are related to themselves need no other order. -/
theorem refl {R : α → α → Prop} (h : ∀ a, R a a) (l : List α) : Rearranged R l l :=
  inPlace (List.forall₂_same.mpr fun a _ => h a)

/-- Two rows after two others. -/
theorem append {l₁ l₂ : List α} {l₁' l₂' : List β} (h₁ : Rearranged R l₁ l₁') (h₂ : Rearranged R l₂ l₂') :
    Rearranged R (l₁ ++ l₂) (l₁' ++ l₂') := by
  obtain ⟨mid₁, hmid₁, hperm₁⟩ := h₁
  obtain ⟨mid₂, hmid₂, hperm₂⟩ := h₂
  exact ⟨mid₁ ++ mid₂, List.rel_append hmid₁ hmid₂, hperm₁.append hperm₂⟩

/-- Rows of rows. -/
theorem flatten {ls : List (List α)} {ls' : List (List β)} (h : List.Forall₂ (Rearranged R) ls ls') :
    Rearranged R ls.flatten ls'.flatten := by
  induction h with
  | nil => exact ⟨[], List.Forall₂.nil, List.Perm.refl []⟩
  | cons h _ ih =>
    rw [List.flatten_cons, List.flatten_cons]
    exact h.append ih

/-- Rows of one length. -/
theorem length_eq {l : List α} {l' : List β} (h : Rearranged R l l') : l.length = l'.length := by
  obtain ⟨mid, hmid, hperm⟩ := h
  exact hmid.length_eq.trans hperm.length_eq

/-- What is made of the items one by one is rearranged like them. -/
theorem transport {P : α → γ → Prop} {P' : β → δ → Prop} {S : γ → δ → Prop} {l : List α} {l' : List β}
    {cs : List γ} (h : Rearranged R l l') (hmade : List.Forall₂ P l cs)
    (hstep : ∀ a ∈ l, ∀ b c, R a b → P a c → ∃ d, P' b d ∧ S c d) :
    ∃ ds, List.Forall₂ P' l' ds ∧ Rearranged S cs ds := by
  obtain ⟨mid, hmid, hperm⟩ := h
  obtain ⟨ds, hds, hcds⟩ := forall₂_transport hmid hmade hstep
  obtain ⟨ds', hds', hperm'⟩ := List.perm_comp_forall₂ hperm.symm hds
  exact ⟨ds', hds', ds, hcds, hperm'.symm⟩

/-- Rows that are related by a function are the one carried over and put in another order. -/
theorem map_perm {g : α → β} {l : List α} {l' : List β} (h : Rearranged (fun a b => g a = b) l l') :
    (l.map g).Perm l' := by
  obtain ⟨mid, hmid, hperm⟩ := h
  have heq : mid = l.map g := by
    clear hperm
    induction hmid with
    | nil => rfl
    | cons hab _ ih => rw [← hab, ih, List.map_cons]
  rw [← heq]
  exact hperm

end Rearranged

/-! ## Objects -/

/-- The value of a name that occurs once does not depend on the order of the names. -/
theorem lookup_eq_of_perm {α : Type} {l l' : List (String × α)} (hperm : l.Perm l')
    (hnames : (l.map Prod.fst).Nodup) (name : String) : l.lookup name = l'.lookup name := by
  induction hperm with
  | nil => rfl
  | cons x _ ih =>
    rw [List.map_cons, List.nodup_cons] at hnames
    rw [List.lookup_cons, List.lookup_cons, ih hnames.2]
  | swap x y rest =>
    obtain ⟨first, v⟩ := x
    obtain ⟨second, w⟩ := y
    have hne : second ≠ first := by
      rw [List.map_cons, List.map_cons, List.nodup_cons] at hnames
      exact fun heq => hnames.1 (heq ▸ List.mem_cons_self)
    simp only [List.lookup_cons]
    cases hfirst : name == first with
    | false => rfl
    | true =>
      cases hsecond : name == second with
      | false => rfl
      | true => exact absurd ((beq_iff_eq.mp hsecond).symm.trans (beq_iff_eq.mp hfirst)) hne
  | trans hperm _ ih₁ ih₂ =>
    rw [ih₁ hnames]
    exact ih₂ ((hperm.map Prod.fst).nodup_iff.mp hnames)

namespace Value

/-- The fields of an object; another value has none. -/
def fields : Value → List (String × Value)
  | .object fields => fields
  | _ => []

/-- Fields of one name with related values. -/
def SameField (R : String → Value → Value → Prop) (a b : String × Value) : Prop := b.1 = a.1 ∧ R a.1 a.2 b.2

/-- Objects with the same names in any order and with related values; any other value stays. -/
def ReorderedBy (R : String → Value → Value → Prop) : Value → Value → Prop
  | .object fields, w => ∃ fields', w = .object fields' ∧ Rearranged (SameField R) fields fields'
  | v, w => w = v

/-- A whole number replaced by another; any other value stays. -/
def renumber (f : Int → Int) : Value → Value
  | .int n => .int (f n)
  | v => v

/-- An entry with its fields in another order and with another id. -/
def EntryReordered (f : Int → Int) : Value → Value → Prop :=
  ReorderedBy fun name v w => w = if name = "id" then v.renumber f else v

/-- A section with its entries in another order and with other ids. -/
def SectionReordered (f : Int → Int) : Value → Value → Prop :=
  ReorderedBy fun _ => EntryReordered f

/-- A specification with its fields and sections in another order and with other ids. -/
def SpecReordered (f : Int → Int) : Value → Value → Prop :=
  ReorderedBy fun name v w =>
    ((∃ place : SpecSection, place.name = name) → SectionReordered f v w) ∧
      ((∀ place : SpecSection, place.name ≠ name) → w = v)

/-- A value is reordered to itself if its fields are related to themselves. -/
theorem reorderedBy_refl {R : String → Value → Value → Prop} (h : ∀ name v, R name v v) (v : Value) :
    ReorderedBy R v v := by
  cases v with
  | object fields => exact ⟨fields, rfl, Rearranged.refl (fun field => ⟨rfl, h field.1 field.2⟩) fields⟩
  | _ => rfl

/-- Without another id a whole number stays. -/
theorem renumber_id (v : Value) : v.renumber id = v := by
  cases v <;> rfl

/-- A specification is its own rearrangement without other ids. -/
theorem specReordered_refl (d : Value) : SpecReordered id d d := by
  have hentry : ∀ v, EntryReordered id v v := reorderedBy_refl fun name v => by rw [renumber_id, ite_self]
  apply reorderedBy_refl
  intro name v
  exact ⟨fun _ => reorderedBy_refl (fun _ => hentry) v, fun _ => rfl⟩

/-- In a specification and in its entries no name occurs twice. -/
structure NamesOnce (d : Value) : Prop where
  here : (d.fields.map Prod.fst).Nodup
  entries : ∀ s ∈ d.fields, ∀ e ∈ s.2.fields, (e.2.fields.map Prod.fst).Nodup

/-- The values of one name are related. -/
theorem field?_rearranged {R : String → Value → Value → Prop} {fields fields' : List (String × Value)}
    (h : Rearranged (SameField R) fields fields') (hnames : (fields.map Prod.fst).Nodup) (name : String) :
    Option.Rel (R name) (field? name fields) (field? name fields') := by
  obtain ⟨mid, hmid, hperm⟩ := h
  have hmap : mid.map Prod.fst = fields.map Prod.fst := by
    clear hperm hnames
    induction hmid with
    | nil => rfl
    | cons hab _ ih => rw [List.map_cons, List.map_cons, ih, hab.1]
  rw [field?, field?, ← lookup_eq_of_perm hperm (hmap ▸ hnames) name]
  clear hperm hnames hmap
  induction hmid with
  | nil => exact Option.Rel.none
  | @cons a b _ _ hab _ ih =>
    rw [List.lookup_cons, List.lookup_cons, hab.1]
    cases hname : name == a.1 with
    | false => exact ih
    | true =>
      rw [beq_iff_eq.mp hname]
      exact Option.Rel.some hab.2

/-- Objects count as left out together. -/
theorem isVoid_eq_of_reorderedBy {R : String → Value → Value → Prop} {v w : Value} (h : ReorderedBy R v w) :
    w.isVoid = v.isVoid := by
  cases v with
  | object fields =>
    obtain ⟨fields', rfl, h⟩ := h
    rw [isVoid, isVoid, Bool.eq_iff_iff, List.isEmpty_iff_length_eq_zero, List.isEmpty_iff_length_eq_zero,
      h.length_eq]
  | _ => rw [h]

end Value

end TensorBridge
