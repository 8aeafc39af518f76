import Mathlib.Data.List.Basic
import TensorBridge.Text.ControlSequence
import TensorBridge.Text.Half
import TensorBridge.Text.Lines

/-!
# Outputs line by line

An output is written line by line, and what becomes of it on the way out may be said of each line on its own: a control
sequence does not go on behind a line break, and a line break is no mark of a half. So the lines of an output lose their
own control sequences, and an output has an encoding if all its lines do. A text without a mark has one in any case.
-/

namespace TensorBridge

/-! ## Control sequences -/

/-- The parameters behind the start of a control sequence end in front of a line break. -/
theorem takeWhile_isParameter_append (cs rest : List Char) :
    (cs ++ '\n' :: rest).takeWhile isParameter = cs.takeWhile isParameter := by
  induction cs with
  | nil => rfl
  | cons c cs ih =>
    rw [List.cons_append, List.takeWhile_cons, List.takeWhile_cons, ih]

/-- A control sequence is no longer than the text. -/
theorem controlLength_le (cs : List Char) : controlLength cs ≤ cs.length := by
  unfold controlLength
  split
  · next rest =>
    dsimp only
    split
    · next c behind hbehind =>
      have hlength := congrArg List.length hbehind
      rw [List.length_drop, List.length_cons] at hlength
      split
      · rw [List.length_cons, List.length_cons]
        omega
      · exact Nat.zero_le _
    · exact Nat.zero_le _
  · exact Nat.zero_le _

/-- Whether a text starts with a control sequence is decided in front of a line break. -/
theorem controlLength_append {cs : List Char} (hne : cs ≠ []) (rest : List Char) :
    controlLength (cs ++ '\n' :: rest) = controlLength cs := by
  by_cases hstart : ∃ more, cs = '\x1b' :: '[' :: more
  · obtain ⟨more, rfl⟩ := hstart
    have hle : (more.takeWhile isParameter).length ≤ more.length := (List.takeWhile_prefix _).length_le
    simp only [List.cons_append, controlLength, takeWhile_isParameter_append, List.drop_append_of_le_length hle]
    cases more.drop (more.takeWhile isParameter).length with
    | nil => rfl
    | cons c behind => rfl
  · have hzero {cs : List Char} (h : ¬ ∃ more, cs = '\x1b' :: '[' :: more) : controlLength cs = 0 := by
      unfold controlLength
      split
      · next more => exact absurd ⟨more, rfl⟩ h
      · rfl
    rw [hzero hstart, hzero]
    rintro ⟨more, heq⟩
    match cs, hne with
    | [c], _ => cases heq
    | c :: d :: cs, _ =>
      cases heq
      exact hstart ⟨cs, rfl⟩

/-- A text is rid of its control sequences in front of a line break and behind it. -/
theorem dropControl_append {cs : List Char} {skipped : Nat} (hskipped : skipped ≤ cs.length) (rest : List Char) :
    dropControl skipped (cs ++ '\n' :: rest) = dropControl skipped cs ++ '\n' :: dropControl 0 rest := by
  induction cs generalizing skipped with
  | nil =>
    rw [List.length_nil, Nat.le_zero] at hskipped
    rw [hskipped]
    rfl
  | cons c cs ih =>
    cases skipped with
    | succ skipped => exact ih (Nat.le_of_succ_le_succ hskipped)
    | zero =>
      have hlength := controlLength_append (List.cons_ne_nil c cs) rest
      have hle := controlLength_le (c :: cs)
      rw [List.cons_append] at hlength ⊢
      rw [dropControl, dropControl, hlength]
      cases hcontrol : controlLength (c :: cs) with
      | zero => exact congrArg (c :: ·) (ih (Nat.zero_le _))
      | succ length =>
        rw [hcontrol] at hle
        exact ih (Nat.le_of_succ_le_succ hle)

/-- The lines of a text, each with a line break behind it. -/
def joinLines (lines : List String) : String := String.join (lines.map (· ++ "\n"))

/-- No lines make no text. -/
theorem joinLines_nil : joinLines [] = "" := rfl

/-- A line in front of others. -/
theorem joinLines_cons (line : String) (rest : List String) :
    joinLines (line :: rest) = line ++ "\n" ++ joinLines rest := by
  rw [joinLines, List.map_cons, String.join_cons]
  rfl

/-- A text is rid of its control sequences line by line. -/
theorem withoutControl_line (line rest : String) :
    withoutControl (line ++ "\n" ++ rest) = withoutControl line ++ "\n" ++ withoutControl rest := by
  have hbreak : ("\n" : String).toList = ['\n'] := rfl
  simp only [← String.toList_inj, withoutControl, String.toList_append, String.toList_ofList, hbreak,
    List.append_assoc, List.singleton_append]
  exact dropControl_append (Nat.zero_le _) _

/-- A line alone keeps the line break behind it. -/
theorem withoutControl_lastLine (line : String) : withoutControl (line ++ "\n") = withoutControl line ++ "\n" := by
  have hline := withoutControl_line line ""
  have hempty : withoutControl "" = "" := rfl
  rwa [hempty, String.append_empty, String.append_empty] at hline

/-- The lines of a text are rid of their control sequences one by one. -/
theorem withoutControl_joinLines (lines : List String) :
    withoutControl (joinLines lines) = joinLines (lines.map withoutControl) := by
  induction lines with
  | nil => rfl
  | cons line rest ih => rw [joinLines_cons, withoutControl_line, ih, List.map_cons, joinLines_cons]

/-! ## Halves -/

/-- The symbols of two texts in a row, if no mark is left open between them. -/
theorem symbols_append {cs : List Char} (hlast : cs.getLast? ≠ some halfMark) (rest : List Char) :
    symbols (cs ++ rest) = symbols cs ++ symbols rest := by
  fun_induction symbols cs with
  | case1 => rfl
  | case2 c =>
    have hc : c ≠ halfMark := fun heq => hlast (congrArg some heq)
    exact symbols_cons_of_ne hc rest
  | case3 d cs ih =>
    have hrest : cs.getLast? ≠ some halfMark := by
      cases cs with
      | nil => simp
      | cons e cs => simpa using hlast
    rw [List.cons_append, List.cons_append, symbols, if_pos rfl, ih hrest]
    rfl
  | case4 c d cs hc ih =>
    have hrest : (d :: cs).getLast? ≠ some halfMark := by simpa using hlast
    rw [List.cons_append, symbols_cons_of_ne hc, ih hrest]
    rfl

/-- Lines have an encoding if each of them has one. -/
theorem isEncodable_joinLines {lines : List String} (h : ∀ line ∈ lines, isEncodable (line ++ "\n") = true) :
    isEncodable (joinLines lines) = true := by
  induction lines with
  | nil => rfl
  | cons line rest ih =>
    obtain ⟨hline, hrest⟩ := List.forall_mem_cons.mp h
    have hlast : (line ++ "\n").toList.getLast? ≠ some halfMark := by
      rw [String.toList_append, List.getLast?_append_of_ne_nil _ (by decide)]
      decide
    rw [joinLines_cons, isEncodable, String.toList_append, symbols_append hlast, List.all_append, Bool.and_eq_true]
    exact ⟨hline, ih hrest⟩

/-- A text without a mark has an encoding. -/
theorem isEncodable_of_not_mem {text : String} (h : halfMark ∉ text.toList) : isEncodable text = true := by
  unfold isEncodable
  generalize text.toList = cs at h ⊢
  induction cs with
  | nil => rfl
  | cons c cs ih =>
    obtain ⟨hc, hcs⟩ := not_or.mp (mt List.mem_cons.mpr h)
    rw [symbols_cons_of_ne (Ne.symm hc), List.all_cons, ih hcs]
    rfl

/-- What stands in none of some lines, and is no line break, does not stand in their text. -/
theorem not_mem_unlines {c : Char} (hc : c ≠ '\n') {lines : List String} (h : ∀ line ∈ lines, c ∉ line.toList) :
    c ∉ (unlines lines).toList := by
  unfold unlines
  induction lines with
  | nil => exact List.not_mem_nil
  | cons line rest ih =>
    obtain ⟨hline, hrest⟩ := List.forall_mem_cons.mp h
    cases rest with
    | nil => rwa [String.intercalate_singleton]
    | cons line' rest =>
      have hbreak : c ∉ ("\n" : String).toList := by simpa using hc
      simp only [String.intercalate_cons_cons, String.toList_append, List.mem_append, not_or]
      exact ⟨⟨hline, hbreak⟩, ih hrest⟩

/-- What does not stand in a text, and is no blank, does not stand in the indented text. -/
theorem not_mem_indent {c : Char} (hblank : c ≠ ' ') {text : String} (h : c ∉ text.toList) (n : Nat) :
    c ∉ (indent n text).toList := by
  intro hc
  rw [indent, String.toList_ofList] at hc
  obtain ⟨line, hline, hc⟩ := List.mem_flatMap.mp hc
  have hmem : c ∈ line → c ∈ text.toList := by
    rw [← flatten_splitLines text.toList]
    exact fun hc => List.mem_flatten.mpr ⟨line, hline, hc⟩
  unfold indentLine at hc
  split at hc
  · exact h (hmem hc)
  · rcases List.mem_append.mp hc with hc | hc
    · exact hblank (List.eq_of_mem_replicate hc)
    · exact h (hmem hc)

end TensorBridge
