import Mathlib.Data.List.DropRight
import Mathlib.Data.List.TakeWhile
import TensorBridge.Text.Blank

/-!
# Trimmed texts

Trimming takes a text apart into blanks, what is left, and blanks again, where what is left neither starts nor ends with
a blank. There is only one way to do so. Blanks inside stay, and no other character is lost, so a text and its trimmed
form have the same characters that are not blank.
-/

namespace TensorBridge

/-- A text consists of blanks, a core that neither starts nor ends with a blank, and blanks. -/
structure HasCore (cs core : List Char) : Prop where
  parts : ∃ front back, cs = front ++ core ++ back ∧ (∀ c ∈ front, isBlank c = true) ∧ ∀ c ∈ back, isBlank c = true
  head : ∀ c ∈ core.head?, isBlank c = false
  last : ∀ c ∈ core.getLast?, isBlank c = false

/-- A text is trimmed in front first, and then at its end. -/
theorem trimChars_eq_rdropWhile (cs : List Char) : trimChars cs = (cs.dropWhile isBlank).rdropWhile isBlank := rfl

/-- The first character of trimmed characters is not blank. -/
theorem dropWhile_trimChars (cs : List Char) : (trimChars cs).dropWhile isBlank = trimChars cs := by
  rw [trimChars_eq_rdropWhile]
  have hprefix := List.rdropWhile_prefix isBlank (cs.dropWhile isBlank)
  have hfirst := List.head?_dropWhile_not isBlank cs
  cases htrimmed : List.rdropWhile isBlank (cs.dropWhile isBlank) with
  | nil => rfl
  | cons c rest =>
    rw [htrimmed] at hprefix
    obtain ⟨behind, hbehind⟩ := hprefix
    rw [← hbehind] at hfirst
    exact List.dropWhile_cons_of_neg (by simpa using hfirst)

/-- Trimmed characters are left as they are. -/
theorem trimChars_trimChars (cs : List Char) : trimChars (trimChars cs) = trimChars cs := by
  rw [trimChars, dropWhile_trimChars]
  exact List.rdropWhile_idempotent isBlank (cs.dropWhile isBlank)

/-- A trimmed text is left as it is. -/
theorem trim_trim (s : String) : trim (trim s) = trim s := by
  rw [trim, trim, String.toList_ofList, trimChars_trimChars]

/-- The trimmed characters are the core of a text. -/
theorem hasCore_trimChars (cs : List Char) : HasCore cs (trimChars cs) where
  parts := by
    refine ⟨cs.takeWhile isBlank, (cs.dropWhile isBlank).rtakeWhile isBlank, ?_, ?_, ?_⟩
    · rw [trimChars_eq_rdropWhile, List.append_assoc, List.rdropWhile_append_rtakeWhile,
        List.takeWhile_append_dropWhile]
    · exact fun c hc => List.mem_takeWhile_imp hc
    · exact fun c hc => List.mem_rtakeWhile_imp hc
  head := by
    intro c hc
    have hfirst := List.head?_dropWhile_not isBlank (trimChars cs)
    rw [dropWhile_trimChars, hc] at hfirst
    simpa using hfirst
  last := by
    intro c hc
    obtain ⟨hne, rfl⟩ := List.mem_getLast?_eq_getLast hc
    exact Bool.eq_false_iff.mpr (List.rdropWhile_last_not isBlank (cs.dropWhile isBlank) hne)

/-- Blanks in front are trimmed off. -/
theorem trimChars_blank_append {front : List Char} (h : ∀ c ∈ front, isBlank c = true) (cs : List Char) :
    trimChars (front ++ cs) = trimChars cs := by
  rw [trimChars, trimChars, List.dropWhile_append_of_pos h]

/-- Blanks behind are trimmed off. -/
theorem trimChars_append_blank {back : List Char} (h : ∀ c ∈ back, isBlank c = true) (cs : List Char) :
    trimChars (cs ++ back) = trimChars cs := by
  have hend (l : List Char) : (l ++ back).rdropWhile isBlank = l.rdropWhile isBlank := by
    have hback : ∀ c ∈ back.reverse, isBlank c = true := fun c hc => h c (List.mem_reverse.mp hc)
    rw [List.rdropWhile, List.reverse_append, List.dropWhile_append_of_pos hback, List.rdropWhile]
  rw [trimChars_eq_rdropWhile, trimChars_eq_rdropWhile, List.dropWhile_append]
  split
  · next hblank =>
    -- nothing but blanks in front of them: both sides are empty
    rw [List.isEmpty_iff.mp hblank, List.dropWhile_eq_nil_iff.mpr h]
  · exact hend _

/-- A text without blanks at its ends is left as it is. -/
theorem trimChars_of_ends {cs : List Char} (hhead : ∀ c ∈ cs.head?, isBlank c = false)
    (hlast : ∀ c ∈ cs.getLast?, isBlank c = false) : trimChars cs = cs := by
  have hfront : cs.dropWhile isBlank = cs := by
    cases cs with
    | nil => rfl
    | cons c rest => exact List.dropWhile_cons_of_neg (by simpa using hhead)
  rw [trimChars_eq_rdropWhile, hfront, List.rdropWhile_eq_self_iff]
  intro hne
  rw [hlast _ (List.getLast?_eq_some_getLast hne)]
  exact Bool.false_ne_true

/-- Text without blanks is trimmed to itself. -/
theorem trimChars_of_not_blank {cs : List Char} (h : ∀ c ∈ cs, isBlank c = false) : trimChars cs = cs :=
  trimChars_of_ends (fun c hc => h c (List.mem_of_head? hc)) fun c hc => h c (List.mem_of_getLast? hc)

/-- A text has one core. -/
theorem trimChars_eq_iff {cs core : List Char} : trimChars cs = core ↔ HasCore cs core := by
  constructor
  · rintro rfl
    exact hasCore_trimChars cs
  · intro h
    obtain ⟨front, back, rfl, hfront, hback⟩ := h.parts
    rw [trimChars_append_blank hback, trimChars_blank_append hfront, trimChars_of_ends h.head h.last]

/-- Trimmed characters are among those that were there. -/
theorem mem_of_mem_trimChars {cs : List Char} {c : Char} (h : c ∈ trimChars cs) : c ∈ cs := by
  obtain ⟨front, back, hcs, _⟩ := (hasCore_trimChars cs).parts
  rw [hcs]
  exact List.mem_append_left _ (List.mem_append_right _ h)

/-- Trimming keeps every character that is not blank. -/
theorem countP_trimChars (cs : List Char) : (trimChars cs).countP (!isBlank ·) = cs.countP (!isBlank ·) := by
  have hnone {l : List Char} (h : ∀ c ∈ l, isBlank c = true) : l.countP (!isBlank ·) = 0 :=
    List.countP_eq_zero.mpr fun c hc => by simp [h c hc]
  obtain ⟨front, back, hcs, hfront, hback⟩ := (hasCore_trimChars cs).parts
  calc (trimChars cs).countP (!isBlank ·)
      = (front ++ trimChars cs ++ back).countP (!isBlank ·) := by
        rw [List.countP_append, List.countP_append, hnone hfront, hnone hback, Nat.zero_add, Nat.add_zero]
    _ = cs.countP (!isBlank ·) := by rw [← hcs]

end TensorBridge
