import Mathlib.Data.List.Forall2
import TensorBridge.Log

/-!
# Computations in a row

A computation that consists of several succeeds exactly if all of them do. Over a list this pairs each item with
the result of its own computation.
-/

namespace TensorBridge

/-- In related lists, each item of the second has one of the first that it is related to. -/
theorem exists_left_of_forall₂ {α β : Type} {R : α → β → Prop} {l : List α} {l' : List β} (h : List.Forall₂ R l l')
    {b : β} (hb : b ∈ l') : ∃ a ∈ l, R a b := by
  induction h with
  | nil => cases hb
  | @cons a _ _ _ hab _ ih =>
    rcases List.mem_cons.mp hb with rfl | hb
    · exact ⟨a, List.mem_cons_self, hab⟩
    · obtain ⟨a', ha', h⟩ := ih hb
      exact ⟨a', List.mem_cons_of_mem a ha', h⟩

/-- In related lists, each item of the first stands next to one of the second. -/
theorem exists_mem_zip {α β : Type} {R : α → β → Prop} {l : List α} {l' : List β} (h : List.Forall₂ R l l') {a : α}
    (ha : a ∈ l) : ∃ b, (a, b) ∈ l.zip l' := by
  induction h with
  | nil => cases ha
  | @cons _ b _ _ _ _ ih =>
    rcases List.mem_cons.mp ha with rfl | ha
    · exact ⟨b, List.mem_cons_self⟩
    · obtain ⟨b', hb'⟩ := ih ha
      exact ⟨b', List.mem_cons_of_mem _ hb'⟩

/-- Two computations in a row succeed if both parts do. -/
theorem except_bind_eq_ok {ε α β : Type} {first : Except ε α} {next : α → Except ε β} {b : β} :
    first >>= next = .ok b ↔ ∃ a, first = .ok a ∧ next a = .ok b := by
  cases first with
  | error e =>
    constructor
    · intro h
      cases h
    · rintro ⟨a, h, _⟩
      cases h
  | ok a =>
    constructor
    · exact fun h => ⟨a, rfl, h⟩
    · rintro ⟨_, h, hnext⟩
      cases h
      exact hnext

/-- A computation that is found to succeed has a result. -/
theorem except_exists_of_isOk {ε α : Type} {e : Except ε α} (h : e.isOk = true) : ∃ a, e = .ok a := by
  cases e with
  | error _ => cases h
  | ok a => exact ⟨a, rfl⟩

/-- Two computations in a row have a result if the first has one and the second then has one. -/
theorem except_bind_succeeds_iff {ε α β : Type} {first : Except ε α} {next : α → Except ε β} :
    (∃ b, first >>= next = .ok b) ↔ ∃ a, first = .ok a ∧ ∃ b, next a = .ok b := by
  simp only [except_bind_eq_ok]
  exact ⟨fun ⟨b, a, ha, hb⟩ => ⟨a, ha, b, hb⟩, fun ⟨a, ha, b, hb⟩ => ⟨b, a, ha, hb⟩⟩

/-- Two computations in a row fail if the first does, or if it has a result and the second fails. -/
theorem except_bind_eq_error {ε α β : Type} {first : Except ε α} {next : α → Except ε β} {e : ε} :
    first >>= next = .error e ↔ first = .error e ∨ ∃ a, first = .ok a ∧ next a = .error e := by
  cases first with
  | error e' =>
    constructor
    · intro h
      cases h
      exact .inl rfl
    · rintro (h | ⟨a, h, _⟩)
      · cases h
        rfl
      · cases h
  | ok a =>
    constructor
    · exact fun h => .inr ⟨a, rfl, h⟩
    · rintro (h | ⟨_, h, hnext⟩)
      · cases h
      · cases h
        exact hnext

/-- A result that is carried over is there if the computation has one. -/
theorem except_map_eq_ok {ε α β : Type} {first : Except ε α} {g : α → β} {b : β} :
    first.map g = .ok b ↔ ∃ a, first = .ok a ∧ g a = b := by
  have hmap : first.map g = first >>= fun a => .ok (g a) := by cases first <;> rfl
  rw [hmap, except_bind_eq_ok]
  simp only [Except.ok.injEq]

/-- A result is the same whatever becomes of errors. -/
theorem except_mapError_eq_ok {ε ε' α : Type} {e : Except ε α} {g : ε → ε'} {a : α} :
    e.mapError g = .ok a ↔ e = .ok a := by
  cases e <;> simp [Except.mapError]

/-- Computations over a list succeed if that of each item does. -/
theorem except_mapM_eq_ok {ε α β : Type} {f : α → Except ε β} {l : List α} {bs : List β} :
    l.mapM f = .ok bs ↔ List.Forall₂ (fun a b => f a = .ok b) l bs := by
  induction l generalizing bs with
  | nil =>
    rw [List.mapM_nil, List.forall₂_nil_left_iff]
    constructor
    · intro h
      cases h
      rfl
    · rintro rfl
      rfl
  | cons a rest ih =>
    rw [List.mapM_cons, except_bind_eq_ok, List.forall₂_cons_left_iff]
    constructor
    · rintro ⟨b, hb, h⟩
      obtain ⟨bs', hbs', h⟩ := except_bind_eq_ok.mp h
      cases h
      exact ⟨b, bs', hb, ih.mp hbs', rfl⟩
    · rintro ⟨b, bs', hb, hbs', rfl⟩
      exact ⟨b, hb, except_bind_eq_ok.mpr ⟨bs', ih.mpr hbs', rfl⟩⟩

/-- What holds of the result of each computation over a list holds of all results. -/
theorem except_mapM_forall {ε α β : Type} {f : α → Except ε β} {l : List α} {bs : List β} (h : l.mapM f = .ok bs)
    {P : β → Prop} (hstep : ∀ a ∈ l, ∀ b, f a = .ok b → P b) : ∀ b ∈ bs, P b := by
  intro b hb
  obtain ⟨a, ha, hab⟩ := exists_left_of_forall₂ (except_mapM_eq_ok.mp h) hb
  exact hstep a ha b hab

/-- Computations over a list have a result if each of them has one. -/
theorem except_mapM_succeeds_iff {ε α β : Type} {f : α → Except ε β} {l : List α} :
    (∃ bs, l.mapM f = .ok bs) ↔ ∀ a ∈ l, ∃ b, f a = .ok b := by
  induction l with
  | nil => exact ⟨fun _ a ha => absurd ha List.not_mem_nil, fun _ => ⟨[], rfl⟩⟩
  | cons a rest ih =>
    rw [List.forall_mem_cons, ← ih]
    simp only [except_mapM_eq_ok, List.forall₂_cons_left_iff]
    constructor
    · rintro ⟨_, b, bs, hb, hbs, _⟩
      exact ⟨⟨b, hb⟩, bs, hbs⟩
    · rintro ⟨⟨b, hb⟩, bs, hbs⟩
      exact ⟨b :: bs, b, bs, hb, hbs, rfl⟩

/-- An item of a list stops what all items in front of it let pass. -/
def StopsFirst {α : Type} (passes stops : α → Prop) (l : List α) : Prop :=
  ∃ before a after, l = before ++ a :: after ∧ (∀ b ∈ before, passes b) ∧ stops a

/-- Nothing stops at an empty list. -/
theorem not_stopsFirst_nil {α : Type} {passes stops : α → Prop} : ¬ StopsFirst passes stops [] := by
  rintro ⟨before, a, after, h, _⟩
  cases before <;> cases h

/-- The first item stops, or it lets pass and one of the others stops. -/
theorem stopsFirst_cons {α : Type} {passes stops : α → Prop} {a : α} {rest : List α} :
    StopsFirst passes stops (a :: rest) ↔ stops a ∨ passes a ∧ StopsFirst passes stops rest := by
  constructor
  · rintro ⟨before, b, after, h, hbefore, hb⟩
    cases before with
    | nil =>
      obtain ⟨rfl, _⟩ := List.cons.inj h
      exact .inl hb
    | cons b' before =>
      obtain ⟨rfl, hrest⟩ := List.cons.inj h
      rw [List.forall_mem_cons] at hbefore
      exact .inr ⟨hbefore.1, before, b, after, hrest, hbefore.2, hb⟩
  · rintro (ha | ⟨ha, before, b, after, rfl, hbefore, hb⟩)
    · exact ⟨[], a, rest, rfl, List.forall_mem_nil _, ha⟩
    · exact ⟨a :: before, b, after, rfl, List.forall_mem_cons.mpr ⟨ha, hbefore⟩, hb⟩

/-- What holds at every stop alike can be said once. -/
theorem stopsFirst_and {α : Type} {passes stops : α → Prop} {P : Prop} {l : List α} :
    StopsFirst passes (fun a => P ∧ stops a) l ↔ P ∧ StopsFirst passes stops l := by
  constructor
  · rintro ⟨before, a, after, h, hbefore, hP, ha⟩
    exact ⟨hP, before, a, after, h, hbefore, ha⟩
  · rintro ⟨hP, before, a, after, h, hbefore, ha⟩
    exact ⟨before, a, after, h, hbefore, hP, ha⟩

/-- Computations over a list fail if one of them does and those in front of it have results. -/
theorem except_mapM_eq_error_iff {ε α β : Type} {f : α → Except ε β} {l : List α} {e : ε} :
    l.mapM f = .error e ↔ StopsFirst (fun a => ∃ b, f a = .ok b) (fun a => f a = .error e) l := by
  induction l with
  | nil => exact iff_of_false (fun h => nomatch h) not_stopsFirst_nil
  | cons a rest ih =>
    rw [List.mapM_cons, stopsFirst_cons, except_bind_eq_error, ← ih]
    refine or_congr_right ⟨?_, ?_⟩
    · rintro ⟨b, hb, h⟩
      rcases except_bind_eq_error.mp h with h | ⟨_, _, h⟩
      · exact ⟨⟨b, hb⟩, h⟩
      · cases h
    · rintro ⟨⟨b, hb⟩, h⟩
      exact ⟨b, hb, except_bind_eq_error.mpr (.inl h)⟩

/-- Where computations over a list fail, one of them does. -/
theorem except_mapM_eq_error {ε α β : Type} {f : α → Except ε β} {l : List α} {e : ε} (h : l.mapM f = .error e) :
    ∃ a ∈ l, f a = .error e := by
  obtain ⟨before, a, after, rfl, _, ha⟩ := except_mapM_eq_error_iff.mp h
  exact ⟨a, by simp, ha⟩

namespace Traced

/-- The outcome of a computation that leaves no records. -/
@[simp] theorem outcome_ofExcept {α : Type} (outcome : Except Error α) : (ofExcept outcome).outcome = outcome := rfl

/-- Two computations in a row that leave records succeed if both parts do. -/
theorem outcome_bind_eq_ok {α β : Type} {first : Traced α} {next : α → Traced β} {b : β} :
    (first >>= next).outcome = .ok b ↔ ∃ a, first.outcome = .ok a ∧ (next a).outcome = .ok b := by
  rw [outcome_bind]
  exact except_bind_eq_ok

/-- Two computations in a row that leave records have a result if the first has one and the second then has one. -/
theorem bind_succeeds_iff {α β : Type} {first : Traced α} {next : α → Traced β} :
    (∃ b, (first >>= next).outcome = .ok b) ↔ ∃ a, first.outcome = .ok a ∧ ∃ b, (next a).outcome = .ok b := by
  simp only [outcome_bind]
  exact except_bind_succeeds_iff

/-- Two computations in a row that leave records fail if the first does, or if it has a result and the second fails. -/
theorem outcome_bind_eq_error {α β : Type} {first : Traced α} {next : α → Traced β} {e : Error} :
    (first >>= next).outcome = .error e ↔
      first.outcome = .error e ∨ ∃ a, first.outcome = .ok a ∧ (next a).outcome = .error e := by
  rw [outcome_bind]
  exact except_bind_eq_error

/-- The outcome of computations over a list. -/
theorem outcome_forEach {α β : Type} (f : α → Traced β) (l : List α) :
    (forEach f l).outcome = l.mapM fun a => (f a).outcome := by
  induction l with
  | nil => rfl
  | cons a rest ih =>
    rw [forEach, List.mapM_cons, outcome_bind, ← ih]
    exact bind_congr fun b => outcome_bind _ _

/-- Computations over a list that leave records succeed if that of each item does. -/
theorem outcome_forEach_eq_ok {α β : Type} {f : α → Traced β} {l : List α} {bs : List β} :
    (forEach f l).outcome = .ok bs ↔ List.Forall₂ (fun a b => (f a).outcome = .ok b) l bs := by
  rw [outcome_forEach]
  exact except_mapM_eq_ok

/-- Computations over a list that leave records have a result if each of them has one. -/
theorem forEach_succeeds_iff {α β : Type} {f : α → Traced β} {l : List α} :
    (∃ bs, (forEach f l).outcome = .ok bs) ↔ ∀ a ∈ l, ∃ b, (f a).outcome = .ok b := by
  rw [outcome_forEach]
  exact except_mapM_succeeds_iff

/-- Computations over a list that leave records fail if one of them does and those in front of it have results. -/
theorem forEach_eq_error_iff {α β : Type} {f : α → Traced β} {l : List α} {e : Error} :
    (forEach f l).outcome = .error e ↔
      StopsFirst (fun a => ∃ b, (f a).outcome = .ok b) (fun a => (f a).outcome = .error e) l := by
  rw [outcome_forEach]
  exact except_mapM_eq_error_iff

/-- Two computations in a row of which the first has a result leave the records of both. -/
theorem records_bind {α β : Type} {first : Traced α} {a : α} (h : first.outcome = .ok a) (next : α → Traced β) :
    (first >>= next).records = first.records ++ (next a).records := by
  rw [bind_of_ok h]

/-- Computations over a list that all have results leave the records of each. -/
theorem records_forEach {α β : Type} {f : α → Traced β} {l : List α} {bs : List β}
    (h : (forEach f l).outcome = .ok bs) : (forEach f l).records = l.flatMap fun a => (f a).records := by
  induction l generalizing bs with
  | nil => rfl
  | cons a rest ih =>
    rw [forEach] at h ⊢
    obtain ⟨b, hb, h⟩ := outcome_bind_eq_ok.mp h
    obtain ⟨bs', hbs', _⟩ := outcome_bind_eq_ok.mp h
    rw [records_bind hb, records_bind hbs', ih hbs', records_pure, List.append_nil, List.flatMap_cons]

/-- Computations over a list that is carried over are those over the list itself. -/
theorem forEach_map {α β γ : Type} (g : α → β) (h : β → Traced γ) (l : List α) :
    forEach h (l.map g) = forEach (fun a => h (g a)) l := by
  induction l with
  | nil => rfl
  | cons a rest ih => rw [List.map_cons, forEach, forEach, ih]

end Traced

end TensorBridge
