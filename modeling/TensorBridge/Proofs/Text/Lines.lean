import Mathlib.Data.List.Basic
import TensorBridge.Number.Double
import TensorBridge.Proofs.Text.Numerals
import TensorBridge.Text.Lines

/-!
# Lines of their own

A text that is put on a line of its own should be one line: it has no character that ends a line. If it also shows
something, indenting the whole of some lines is the same as putting spaces in front of each of them. Numbers are always
one line.
-/

namespace TensorBridge

/-- A text in which no character ends a line. -/
def IsOneLine (text : String) : Prop := ∀ c ∈ text.toList, isLineEnd c = false

instance (text : String) : Decidable (IsOneLine text) := List.decidableBAll (isLineEnd · = false) text.toList

/-- A text of one line that is not blank. -/
structure IsVisibleLine (text : String) : Prop where
  oneLine : IsOneLine text
  shows : ∃ c ∈ text.toList, isBlank c = false

/-! ## Texts of one line -/

section OneLine

variable {a b : String}

/-- Two texts in a row are one line if both of them are. -/
theorem isOneLine_append : IsOneLine (a ++ b) ↔ IsOneLine a ∧ IsOneLine b := by
  rw [IsOneLine, String.toList_append, List.forall_mem_append]
  rfl

/-- Texts of one line with a text of one line between neighbours are one line. -/
theorem isOneLine_intercalate {separator : String} (hseparator : IsOneLine separator) {texts : List String}
    (h : ∀ text ∈ texts, IsOneLine text) : IsOneLine (separator.intercalate texts) := by
  induction texts with
  | nil => exact List.forall_mem_nil _
  | cons text rest ih =>
    obtain ⟨htext, hrest⟩ := List.forall_mem_cons.mp h
    cases rest with
    | nil => rwa [String.intercalate_singleton]
    | cons next rest =>
      rw [String.intercalate_cons_cons]
      exact isOneLine_append.mpr ⟨isOneLine_append.mpr ⟨htext, hseparator⟩, ih hrest⟩

/-- A list of texts of one line is one line. -/
theorem isOneLine_commaList {items : List String} (h : ∀ item ∈ items, IsOneLine item) :
    IsOneLine (commaList items) :=
  isOneLine_intercalate (by decide) h

/-- Spaces are one line. -/
theorem isOneLine_spaces (n : Nat) : IsOneLine (spaces n) := by
  intro c hc
  rw [spaces, String.toList_ofList] at hc
  rw [List.eq_of_mem_replicate hc]
  rfl

/-- A text of one line that ends visibly. -/
theorem isVisibleLine_append (ha : IsOneLine a) (hb : IsVisibleLine b) : IsVisibleLine (a ++ b) := by
  obtain ⟨c, hc, hblank⟩ := hb.shows
  refine ⟨isOneLine_append.mpr ⟨ha, hb.oneLine⟩, c, ?_, hblank⟩
  rw [String.toList_append]
  exact List.mem_append_right _ hc

end OneLine

/-! ## Numbers -/

/-- Digits do not end a line. -/
theorem isLineEnd_of_isDigit {c : Char} (hc : c.isDigit = true) : isLineEnd c = false := by
  rw [Char.isDigit, Bool.and_eq_true, decide_eq_true_eq, decide_eq_true_eq] at hc
  have hlow : 48 ≤ c.toNat := UInt32.le_iff_toNat_le.mp hc.1
  have hhigh : c.toNat ≤ 57 := UInt32.le_iff_toNat_le.mp hc.2
  simp only [isLineEnd, Bool.or_eq_false_iff, Bool.and_eq_false_iff, decide_eq_false_iff_not, beq_eq_false_iff_ne]
  omega

/-- The digits of a number do not end a line. -/
theorem isLineEnd_of_mem_toDigits {n : Nat} : ∀ c ∈ Nat.toDigits 10 n, isLineEnd c = false := fun _ hc =>
  isLineEnd_of_isDigit (Nat.isDigit_of_mem_toDigits (by omega) (by omega) hc)

/-- A whole number is one line. -/
theorem isOneLine_int (n : Int) : IsOneLine (toString n) := by
  have hnat (n : Nat) : IsOneLine (toString n) := fun _ hc => isLineEnd_of_isDigit (isDigit_of_mem_toString hc)
  cases n with
  | ofNat n => exact hnat n
  | negSucc n => exact isOneLine_append.mpr ⟨by decide, hnat (n + 1)⟩

namespace Double

variable {digits : List Char}

/-- Digits that lose zeros at their end do not end a line. -/
theorem isLineEnd_of_mem_dropFinalZeros (h : ∀ c ∈ digits, isLineEnd c = false) :
    ∀ c ∈ dropFinalZeros digits, isLineEnd c = false := by
  unfold dropFinalZeros
  split
  · exact List.forall_mem_singleton.mpr rfl
  · intro c hc
    exact h c (List.mem_reverse.mp ((List.dropWhile_sublist _).subset (List.mem_reverse.mp hc)))

/-- An exponent does not end a line. -/
theorem isLineEnd_of_mem_exponentChars (power : Int) : ∀ c ∈ exponentChars power, isLineEnd c = false := by
  rw [exponentChars, List.forall_mem_cons, List.forall_mem_cons]
  refine ⟨by decide, ?_, ?_⟩
  · split <;> decide
  · split
    · exact List.forall_mem_cons.mpr ⟨by decide, isLineEnd_of_mem_toDigits⟩
    · exact isLineEnd_of_mem_toDigits

/-- Digits with the point put in do not end a line. -/
theorem isLineEnd_of_mem_layout (h : ∀ c ∈ digits, isLineEnd c = false) (power : Int) :
    ∀ c ∈ layout digits power, isLineEnd c = false := by
  have hzeros (n : Nat) : ∀ c ∈ List.replicate n '0', isLineEnd c = false := by
    intro c hc
    rw [List.eq_of_mem_replicate hc]
    rfl
  have hexponent := isLineEnd_of_mem_exponentChars power
  unfold layout
  split
  · simp only [List.forall_mem_append, List.forall_mem_cons]
    exact ⟨⟨by decide, by decide, hzeros _⟩, h⟩
  split
  · simp only [List.forall_mem_append, List.forall_mem_cons]
    refine ⟨⟨fun c hc => h c (List.mem_of_mem_take hc), hzeros _⟩, by decide, ?_⟩
    split
    · exact List.forall_mem_singleton.mpr rfl
    · exact fun c hc => h c (List.mem_of_mem_drop hc)
  · split
    · exact hexponent
    · exact List.forall_mem_cons.mpr ⟨h _ List.mem_cons_self, hexponent⟩
    · rw [List.forall_mem_cons] at h
      simp only [List.forall_mem_append, List.forall_mem_cons]
      exact ⟨⟨h.1, by decide, h.2⟩, hexponent⟩

/-- A number of double precision is one line. -/
theorem isOneLine_text (x : Double) : IsOneLine x.text := by
  cases x with
  | nan => decide
  | infinite negative => cases negative <;> decide
  | finite negative mantissa exponent =>
    rw [IsOneLine, text, String.toList_ofList]
    have hbody : ∀ c ∈ (if mantissa = 0 then ['0', '.', '0']
        else layout (dropFinalZeros (shortest mantissa exponent).1) (shortest mantissa exponent).2),
        isLineEnd c = false := by
      split
      · simp [isLineEnd]
      · exact isLineEnd_of_mem_layout (isLineEnd_of_mem_dropFinalZeros isLineEnd_of_mem_toDigits) _
    split
    · exact List.forall_mem_cons.mpr ⟨by decide, hbody⟩
    · exact hbody

end Double

/-! ## Breaking and indenting -/

/-- Spaces in a row. -/
theorem spaces_add (m n : Nat) : spaces (m + n) = spaces m ++ spaces n := by
  rw [spaces, List.replicate_add, String.ofList_append]
  rfl

/-- A character that does not end a line stands on the first line. -/
theorem splitLines_cons {c : Char} (hc : isLineEnd c = false) (rest : List Char) :
    splitLines (c :: rest) = consLine c (splitLines rest) := by
  have hreturn : c ≠ '\r' := by
    rintro rfl
    cases hc
  rw [splitLines, hc]
  · rfl
  · exact fun _ heq => absurd heq hreturn

/-- Characters of which none ends a line are one line. -/
theorem splitLines_of_forall {cs : List Char} (hne : cs ≠ []) (h : ∀ c ∈ cs, isLineEnd c = false) :
    splitLines cs = [cs] := by
  induction cs with
  | nil => exact absurd rfl hne
  | cons c cs ih =>
    obtain ⟨hc, hcs⟩ := List.forall_mem_cons.mp h
    rw [splitLines_cons hc]
    cases cs with
    | nil => rfl
    | cons d cs => rw [ih (List.cons_ne_nil d cs) hcs, consLine]

/-- A line break ends the line of the characters in front of it. -/
theorem splitLines_append_break {cs : List Char} (h : ∀ c ∈ cs, isLineEnd c = false) (rest : List Char) :
    splitLines (cs ++ '\n' :: rest) = (cs ++ ['\n']) :: splitLines rest := by
  induction cs with
  | nil =>
    rw [List.nil_append, splitLines]
    · rfl
    · exact fun _ heq => absurd heq (by decide)
  | cons c cs ih =>
    obtain ⟨hc, hcs⟩ := List.forall_mem_cons.mp h
    rw [List.cons_append, splitLines_cons hc, ih hcs, consLine, List.cons_append]

/-- A visible line is indented. -/
theorem IsVisibleLine.indentLine_append {line : String} (h : IsVisibleLine line) (n : Nat) (behind : List Char) :
    indentLine n (line.toList ++ behind) = (spaces n ++ line).toList ++ behind := by
  obtain ⟨c, hc, hblank⟩ := h.shows
  have hvisible : (line.toList ++ behind).all isBlank = false :=
    List.all_eq_false.mpr ⟨c, List.mem_append_left _ hc, Bool.eq_false_iff.mp hblank⟩
  rw [indentLine, hvisible, if_neg Bool.false_ne_true, spaces, String.toList_append, String.toList_ofList,
    List.append_assoc]

/-- Visible lines are indented one by one. -/
theorem indent_unlines (n : Nat) {lines : List String} (h : ∀ line ∈ lines, IsVisibleLine line) :
    indent n (unlines lines) = unlines (lines.map (spaces n ++ ·)) := by
  unfold unlines
  rw [← String.toList_inj, indent, String.toList_ofList]
  induction lines with
  | nil => rfl
  | cons line rest ih =>
    obtain ⟨hline, hrest⟩ := List.forall_mem_cons.mp h
    cases rest with
    | nil =>
      have hne : line.toList ≠ [] := by
        obtain ⟨c, hc, _⟩ := hline.shows
        exact List.ne_nil_of_mem hc
      have hindented := hline.indentLine_append n []
      rw [List.append_nil, List.append_nil] at hindented
      rw [String.intercalate_singleton, splitLines_of_forall hne hline.oneLine, List.flatMap_singleton, hindented,
        List.map_singleton, String.intercalate_singleton]
    | cons next rest =>
      have hbreak : ("\n" : String).toList = ['\n'] := rfl
      rw [String.intercalate_cons_cons, String.toList_append, String.toList_append, hbreak, List.append_assoc,
        List.singleton_append, splitLines_append_break hline.oneLine, List.flatMap_cons, ih hrest,
        hline.indentLine_append]
      simp only [List.map_cons, String.intercalate_cons_cons, String.toList_append, hbreak, List.append_assoc]

end TensorBridge
