import TensorBridge.Proofs.Conversion.Variables

/-!
# Identifiers of operands

What sets the identifiers of operands apart from the other names in a kernel, whatever the operands are called: the
functions and macros of the libraries, the constants for the types of matrices, and the members that hold attributes.
And what sets them apart from each other: an identifier tells the operand and the part, with one exception.
-/

namespace TensorBridge

/-- An identifier that some operand may have. -/
def IsIdentifier (text : String) : Prop := ∃ (n : Names) (p : Part), text = n.part p

/-- What every identifier has: an underscore, a small letter, and a letter or a digit at its end. -/
def isPlausible (cs : List Char) : Bool :=
  cs.contains '_' && cs.any Char.isLower && cs.getLast?.any Char.isAlphanum

/-- A plausible ending makes a text plausible. -/
theorem isPlausible_append {base ending : List Char} (h : isPlausible ending = true) :
    isPlausible (base ++ ending) = true := by
  simp only [isPlausible, Bool.and_eq_true] at h ⊢
  obtain ⟨⟨hunderscore, hlower⟩, hlast⟩ := h
  have hne : ending ≠ [] := by
    rintro rfl
    cases hlast
  refine ⟨⟨?_, ?_⟩, ?_⟩
  · rw [List.contains_iff_mem] at hunderscore ⊢
    exact List.mem_append_right base hunderscore
  · rw [List.any_append, hlower, Bool.or_true]
  · rwa [List.getLast?_append_of_ne_nil base hne]

/-- A number at the end is plausible. -/
theorem isPlausible_append_toDigits {front : List Char} (hunderscore : front.contains '_' = true)
    (hlower : front.any Char.isLower = true) (axis : Nat) : isPlausible (front ++ Nat.toDigits 10 axis) = true := by
  have hne : Nat.toDigits 10 axis ≠ [] := Nat.toDigits_ne_nil
  have hdigit := Nat.isDigit_of_mem_toDigits (by omega) (by omega) (List.getLast_mem hne)
  simp only [isPlausible, Bool.and_eq_true]
  refine ⟨⟨?_, ?_⟩, ?_⟩
  · rw [List.contains_iff_mem] at hunderscore ⊢
    exact List.mem_append_left _ hunderscore
  · rw [List.any_append, hlower, Bool.true_or]
  · rw [List.getLast?_append_of_ne_nil front hne, List.getLast?_eq_getLast_of_ne_nil hne, Option.any_some,
      Char.isAlphanum, hdigit, Bool.or_true]

/-- The endings of identifiers are plausible. -/
theorem Part.isPlausible_ending (p : Part) : isPlausible p.ending.toList = true := by
  have hdigits (axis : Nat) : (toString axis).toList = Nat.toDigits 10 axis := by simp
  cases p with
  | index axis =>
    rw [ending, String.toList_append, hdigits]
    exact isPlausible_append_toDigits (by decide) (by decide) axis
  | size axis =>
    rw [ending, String.toList_append, hdigits]
    exact isPlausible_append_toDigits (by decide) (by decide) axis
  | _ => decide

/-- Identifiers are plausible. -/
theorem IsIdentifier.isPlausible {text : String} (h : IsIdentifier text) : isPlausible text.toList = true := by
  obtain ⟨n, p, rfl⟩ := h
  rw [Names.part, String.toList_append]
  exact isPlausible_append p.isPlausible_ending

/-- The member of an attribute is no identifier of an operand. -/
theorem not_isIdentifier_member (name : String) : ¬ IsIdentifier (name ++ "_") := by
  intro h
  have hlast := h.isPlausible
  rw [String.toList_append, TensorBridge.isPlausible, Bool.and_eq_true, List.getLast?_append_of_ne_nil] at hlast
  · exact absurd hlast.2 (by decide)
  · decide

/-- The type constant of a matrix is no identifier of an operand. -/
theorem not_isIdentifier_matrixConstant {e : Element} (h : e.isMatrix = true) : ¬ IsIdentifier e.matrixConstant := by
  intro hidentifier
  have hlower := hidentifier.isPlausible
  rw [TensorBridge.isPlausible, Bool.and_eq_true, Bool.and_eq_true] at hlower
  cases e with
  | primitive => cases h
  | matrix depth written container endsLine =>
    have hdepth : depth.matrixType.toList.any Char.isLower = false := by cases depth <;> rfl
    have hline : (Element.lineEnd endsLine).toList.any Char.isLower = false := by cases endsLine <;> rfl
    have hchannels (k : Fin 4) : ("C" ++ toString (k.val + 1)).toList.any Char.isLower = false := by
      revert k
      decide
    have hnone : (Element.matrix depth written container endsLine).matrixConstant.toList.any Char.isLower = false := by
      cases written with
      | none =>
        simp only [Element.matrixConstant, Element.canonical, String.toList_append, List.any_append, hdepth, hline]
        rfl
      | some k =>
        simp only [Element.matrixConstant, Element.canonical, String.toList_append, List.any_append, hdepth, hline]
        simpa using hchannels k
    rw [hnone] at hlower
    cases hlower.1.2

/-! ## Equal identifiers -/

namespace Part

/-- What all endings of a part begin with, whatever its number. -/
def stem : Part → String
  | .index _ => "_dims_"
  | .size _ => "_dims_size_"
  | p => p.ending

/-- The digits that an ending closes with. -/
def digits : Part → List Char
  | .index axis => Nat.toDigits 10 axis
  | .size axis => Nat.toDigits 10 axis
  | _ => []

/-- An ending is a stem and digits. -/
theorem toList_ending (p : Part) : p.ending.toList = p.stem.toList ++ p.digits := by
  have hdigits (front : String) (axis : Nat) :
      (front ++ toString axis).toList = front.toList ++ Nat.toDigits 10 axis := by simp
  cases p with
  | index axis => exact hdigits _ axis
  | size axis => exact hdigits _ axis
  | _ => exact (List.append_nil _).symm

/-- The digits are digits. -/
theorem isDigit_of_mem_digits (p : Part) : ∀ c ∈ p.digits, c.isDigit = true := by
  cases p with
  | index axis => exact fun c hc => Nat.isDigit_of_mem_toDigits (by omega) (by omega) hc
  | size axis => exact fun c hc => Nat.isDigit_of_mem_toDigits (by omega) (by omega) hc
  | _ => exact List.forall_mem_nil _

/-- The stems of all endings. -/
def stems : List String :=
  ["_in", "_out", "_in_data", "_out_data", "_cv", "_shape", "_mat_shape", "_mat", "_dims_", "_dims_size_"]

/-- A stem is one of them. -/
theorem stem_mem_stems (p : Part) : p.stem ∈ stems := by
  cases p <;> simp [stem, ending, stems]

/-- A text with a stem behind it does not close with a digit. -/
theorem getLast?_append_stem (p : Part) (base : List Char) :
    ∃ c, (base ++ p.stem.toList).getLast? = some c ∧ c.isDigit = false := by
  have hall : ∀ stem ∈ stems, (stem.toList.getLast?.any fun c => !c.isDigit) = true := by decide
  have hp := hall p.stem p.stem_mem_stems
  rw [Option.any_eq_true] at hp
  obtain ⟨c, hc, hdigit⟩ := hp
  have hne : p.stem.toList ≠ [] := by
    intro hnil
    rw [hnil] at hc
    cases hc
  exact ⟨c, (List.getLast?_append_of_ne_nil base hne).trans hc, (Bool.not_eq_true' _).mp hdigit⟩

/-- One stem closes another one that is longer: that of the extents of a block. -/
theorem stem_suffix {p q : Part} (h : p.stem.toList <:+ q.stem.toList) :
    p.stem = q.stem ∨ p = .shape ∧ q = .blockShape := by
  have hall : ∀ a ∈ stems, ∀ b ∈ stems, a.toList <:+ b.toList → a = b ∨ a = "_shape" ∧ b = "_mat_shape" := by decide
  refine (hall p.stem p.stem_mem_stems q.stem q.stem_mem_stems h).imp_right fun ⟨hp, hq⟩ => ⟨?_, ?_⟩
  · cases p with
    | shape => rfl
    | _ => exact absurd hp (by simp [stem, ending])
  · cases q with
    | blockShape => rfl
    | _ => exact absurd hq (by simp [stem, ending])

end Part

/-- The digits at the end of a text are told apart from what stands before them. -/
theorem append_digits_inj {front front' digits digits' : List Char} {c c' : Char} (hfront : front.getLast? = some c)
    (hc : c.isDigit = false) (hfront' : front'.getLast? = some c') (hc' : c'.isDigit = false)
    (hdigits : ∀ d ∈ digits, d.isDigit = true) (hdigits' : ∀ d ∈ digits', d.isDigit = true)
    (h : front ++ digits = front' ++ digits') : front = front' ∧ digits = digits' := by
  -- What one of the fronts has more than the other is made of digits.
  have hmore {front more : List Char} {c : Char} (hlast : (front ++ more).getLast? = some c)
      (hc : c.isDigit = false) (hmore : ∀ d ∈ more, d.isDigit = true) : more = [] := by
    by_contra hne
    rw [List.getLast?_append_of_ne_nil front hne] at hlast
    rw [hmore c (List.mem_of_getLast? hlast)] at hc
    cases hc
  rcases List.append_eq_append_iff.mp h with ⟨more, rfl, rfl⟩ | ⟨more, rfl, rfl⟩
  · obtain rfl := hmore hfront' hc' fun d hd => hdigits d (List.mem_append_left digits' hd)
    exact ⟨(List.append_nil front).symm, rfl⟩
  · obtain rfl := hmore hfront hc fun d hd => hdigits' d (List.mem_append_left digits hd)
    exact ⟨List.append_nil front', rfl⟩

namespace Names

variable {n m : Names} {p q : Part}

/-- An operand's name for the extents of its value is another operand's name for the extents of a block. -/
def Meets (n m : Names) (p q : Part) : Prop := n.base = m.base ++ "_mat" ∧ p = .shape ∧ q = .blockShape

/-- Identifiers that meet are equal. -/
theorem Meets.part_eq_part (h : n.Meets m p q) : n.part p = m.part q := by
  obtain ⟨hbase, rfl, rfl⟩ := h
  rw [part, part, hbase, String.append_assoc]
  rfl

/-- Identifiers of the two kinds of extents that are equal meet. -/
theorem meets_of_stems (h : n.base.toList ++ Part.shape.stem.toList = m.base.toList ++ Part.blockShape.stem.toList) :
    n.Meets m .shape .blockShape := by
  have hsplit : Part.blockShape.stem.toList = "_mat".toList ++ Part.shape.stem.toList := by decide
  rw [hsplit, ← List.append_assoc] at h
  refine ⟨?_, rfl, rfl⟩
  rw [← String.toList_inj, String.toList_append]
  exact List.append_cancel_right h

/-- Equal identifiers have equal digits, and are equal without them. -/
theorem stems_and_digits_of_part_eq (h : n.part p = m.part q) :
    n.base.toList ++ p.stem.toList = m.base.toList ++ q.stem.toList ∧ p.digits = q.digits := by
  obtain ⟨c, hc, hdigit⟩ := p.getLast?_append_stem n.base.toList
  obtain ⟨c', hc', hdigit'⟩ := q.getLast?_append_stem m.base.toList
  rw [part, part, ← String.toList_inj, String.toList_append, String.toList_append, p.toList_ending, q.toList_ending,
    ← List.append_assoc, ← List.append_assoc] at h
  exact append_digits_inj hc hdigit hc' hdigit' p.isDigit_of_mem_digits q.isDigit_of_mem_digits h

/-- Equal identifiers are for the same part of the same operand, but for the extents of a value and those of a
block. -/
theorem part_eq_part_iff : n.part p = m.part q ↔ n = m ∧ p = q ∨ n.Meets m p q ∨ m.Meets n q p := by
  constructor
  · intro h
    obtain ⟨hstems, hdigits⟩ := stems_and_digits_of_part_eq h
    have hsame (heq : p.stem = q.stem) : n = m ∧ p = q := by
      have hending : p.ending = q.ending := by
        rw [← String.toList_inj, p.toList_ending, q.toList_ending, heq, hdigits]
      rw [heq] at hstems
      have hbase := List.append_cancel_right hstems
      rw [String.toList_inj] at hbase
      cases n
      cases m
      cases hbase
      exact ⟨rfl, Part.ending_injective hending⟩
    -- Both stems close the same text, so one of them closes the other.
    rcases List.suffix_or_suffix_of_suffix ⟨_, rfl⟩ ⟨_, hstems.symm⟩ with hsuffix | hsuffix
    · rcases Part.stem_suffix hsuffix with heq | ⟨rfl, rfl⟩
      · exact .inl (hsame heq)
      · exact .inr (.inl (meets_of_stems hstems))
    · rcases Part.stem_suffix hsuffix with heq | ⟨rfl, rfl⟩
      · exact .inl (hsame heq.symm)
      · exact .inr (.inr (meets_of_stems hstems.symm))
  · rintro (⟨rfl, rfl⟩ | h | h)
    · rfl
    · exact h.part_eq_part
    · exact h.part_eq_part.symm

/-- Only the value of an operand has the identifier of its value. -/
theorem part_eq_value_iff : n.part p = m.value ↔ n = m ∧ p = .value := by
  rw [value_eq_part, part_eq_part_iff]
  simp [Meets]

end Names

end TensorBridge
