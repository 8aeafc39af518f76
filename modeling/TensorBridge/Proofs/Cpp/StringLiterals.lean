import Mathlib.Algebra.Ring.Parity
import Mathlib.Data.List.DropRight
import TensorBridge.Proofs.Cpp.Literals

/-!
# String literals end where they should

A string literal is made by two replacements in a row, and the second must not touch what the first has put in. It does
not: the two make one pass that hides every quote and every backslash of the value behind a backslash. So the first
quote that is not hidden is the one that closes the literal, whatever the value is, and the value comes back when each
backslash gives way to the character behind it. Quotes and backslashes are all that is escaped: a line break stays as
it is, and for C++ only the literal of a text without one is well formed.
-/

namespace TensorBridge

/-- The number of backslashes that stand in a row at the end of some characters. -/
def finalBackslashes (cs : List Char) : Nat := (cs.rtakeWhile (· = '\x5c')).length

/-- Some characters with every escape undone: from left to right, a backslash gives way to the character behind it. -/
def undoEscapes : List Char → List Char
  | [] => []
  | '\x5c' :: c :: rest => c :: undoEscapes rest
  | c :: rest => c :: undoEscapes rest

/-- A literal that is read from behind its opening quote: what stands in front of the first quote that is not escaped,
and what stands behind this quote. -/
def splitLiteral : List Char → Option (List Char × List Char)
  | [] => none
  | '\x22' :: rest => some ([], rest)
  | '\x5c' :: c :: rest => (splitLiteral rest).map fun (body, behind) => ('\x5c' :: c :: body, behind)
  | c :: rest => (splitLiteral rest).map fun (body, behind) => (c :: body, behind)

/-! ## One pass -/

/-- One character as it stands inside a string literal. -/
def literalChar (c : Char) : List Char := if c = '\x5c' ∨ c = '\x22' then ['\x5c', c] else [c]

/-- Characters are replaced one by one. -/
theorem replaceEach_append (old : Char) (new a b : List Char) :
    replaceEach old new (a ++ b) = replaceEach old new a ++ replaceEach old new b :=
  List.flatMap_append

/-- For one character, the two replacements put a backslash in front of it if it is a quote or a backslash. -/
theorem escaped_singleton (c : Char) : escaped [c] = literalChar c := by
  by_cases hbackslash : c = '\x5c'
  · subst hbackslash
    decide
  by_cases hquote : c = '\x22'
  · subst hquote
    decide
  have hkept : replaceEach '\x5c' ['\x5c', '\x5c'] [c] = [c] :=
    replaceEach_of_not_mem fun hmem => hbackslash (List.mem_singleton.mp hmem).symm
  have hkept' : replaceEach '\x22' ['\x5c', '\x22'] [c] = [c] :=
    replaceEach_of_not_mem fun hmem => hquote (List.mem_singleton.mp hmem).symm
  rw [escaped, hkept, hkept', literalChar, if_neg (not_or.mpr ⟨hbackslash, hquote⟩)]

/-- The two replacements, one after the other over the whole text, are one pass over its characters: the second finds
the quotes of the text and no others, and puts nothing between a backslash and its double. -/
theorem escaped_eq_flatMap (cs : List Char) : escaped cs = cs.flatMap literalChar := by
  induction cs with
  | nil => rfl
  | cons c rest ih =>
    have hsplit : escaped ([c] ++ rest) = escaped [c] ++ escaped rest := by
      simp only [escaped, replaceEach_append]
    rw [List.flatMap_cons, ← ih, ← escaped_singleton, ← hsplit, List.singleton_append]

/-- In the other order the backslash that hides a quote would be doubled, and the quote would end the literal. -/
example : replaceEach '\x5c' ['\x5c', '\x5c'] (replaceEach '\x22' ['\x5c', '\x22'] ['\x22']) =
    ['\x5c', '\x5c', '\x22'] := by decide

/-! ## One character -/

/-- A character stands in a literal with a backslash in front of it, or it is neither a quote nor a backslash and
stands there as it is. -/
theorem literalChar_cases (c : Char) :
    (c = '\x5c' ∨ c = '\x22') ∧ literalChar c = ['\x5c', c] ∨ (c ≠ '\x5c' ∧ c ≠ '\x22') ∧ literalChar c = [c] := by
  unfold literalChar
  split
  · next h => exact .inl ⟨h, rfl⟩
  · next h => exact .inr ⟨not_or.mp h, rfl⟩

/-- Undoing the escapes gives the first character back. -/
theorem undoEscapes_literalChar_append (c : Char) (rest : List Char) :
    undoEscapes (literalChar c ++ rest) = c :: undoEscapes rest := by
  obtain ⟨_, hc⟩ | ⟨⟨hbackslash, _⟩, hc⟩ := literalChar_cases c
  · rw [hc]
    rfl
  · rw [hc, List.singleton_append]
    simp [undoEscapes, hbackslash]

/-- A literal does not end inside the first character. -/
theorem splitLiteral_literalChar_append (c : Char) (rest : List Char) :
    splitLiteral (literalChar c ++ rest) =
      (splitLiteral rest).map fun (body, behind) => (literalChar c ++ body, behind) := by
  obtain ⟨_, hc⟩ | ⟨⟨hbackslash, hquote⟩, hc⟩ := literalChar_cases c
  · rw [hc]
    rfl
  · rw [hc, List.singleton_append]
    simp [splitLiteral, hbackslash]

/-- The value of a literal goes on behind the first character, unless this is a line break. -/
theorem literalFrom_literalChar_append (e : Escapes) (c : Char) (rest : List Char) :
    literalFrom e 0 (literalChar c ++ rest) = if c = '\n' then none else (literalFrom e 0 rest).map (c :: ·) := by
  obtain ⟨h, hc⟩ | ⟨⟨hbackslash, hquote⟩, hc⟩ := literalChar_cases c
  · have hread : e.read (c :: rest) = some (c, 1) := by
      rcases h with rfl | rfl
      · exact e.backslash rest
      · exact e.quote rest
    have hbreak : c ≠ '\n' := by
      rintro rfl
      revert h
      decide
    rw [hc, if_neg hbreak]
    change (e.read (c :: rest)).bind _ = _
    rw [hread]
    rfl
  · rw [hc, List.singleton_append, literalFrom, if_neg hbackslash]
    simp [hquote]

/-! ## Rows of backslashes -/

/-- A backslash at the end makes the row longer. -/
theorem finalBackslashes_concat_backslash (cs : List Char) :
    finalBackslashes (cs ++ ['\x5c']) = finalBackslashes cs + 1 := by
  rw [finalBackslashes, List.rtakeWhile_concat_pos _ _ _ (by simp), List.length_append]
  rfl

/-- Any other character at the end breaks the row. -/
theorem finalBackslashes_concat_of_ne {c : Char} (hc : c ≠ '\x5c') (cs : List Char) :
    finalBackslashes (cs ++ [c]) = 0 := by
  rw [finalBackslashes, List.rtakeWhile_concat_neg _ _ _ (by simpa using hc)]
  rfl

/-- A value ends, as it stands in its literal, in an even number of backslashes. -/
theorem even_finalBackslashes (cs : List Char) : Even (finalBackslashes (cs.flatMap literalChar)) := by
  induction cs using List.reverseRecOn with
  | nil => exact ⟨0, rfl⟩
  | append_singleton cs c ih =>
    rw [List.flatMap_append, List.flatMap_singleton]
    obtain ⟨rfl | rfl, hc⟩ | ⟨⟨hbackslash, _⟩, hc⟩ := literalChar_cases c
    · rw [hc, List.append_cons, finalBackslashes_concat_backslash, finalBackslashes_concat_backslash]
      exact ih.add even_two
    · rw [hc, List.append_cons, finalBackslashes_concat_of_ne (by decide)]
      exact Even.zero
    · rw [hc, finalBackslashes_concat_of_ne hbackslash]
      exact Even.zero

/-- The only quote that a character puts into a literal is one behind a backslash. -/
theorem front_of_literalChar_eq {c : Char} {front back : List Char} (h : literalChar c = front ++ '\x22' :: back) :
    front = ['\x5c'] := by
  obtain ⟨_, hc⟩ | ⟨⟨_, hquote⟩, hc⟩ := literalChar_cases c
  · match front, hc.symm.trans h with
    | [], heq => cases heq
    | [_], heq => exact congrArg ([·]) (List.cons.inj heq).1.symm
    | _ :: _ :: front, heq =>
      have hlength := congrArg List.length heq
      simp at hlength
  · match front, hc.symm.trans h with
    | [], heq => exact absurd (List.cons.inj heq).1 hquote
    | _ :: front, heq =>
      have hlength := congrArg List.length heq
      simp at hlength

/-- A quote inside a literal stands behind an odd number of backslashes. -/
theorem odd_finalBackslashes {cs front back : List Char} (h : cs.flatMap literalChar = front ++ '\x22' :: back) :
    Odd (finalBackslashes front) := by
  induction cs using List.reverseRecOn generalizing back with
  | nil => cases front <;> cases h
  | append_singleton cs c ih =>
    rw [List.flatMap_append, List.flatMap_singleton] at h
    rcases List.append_eq_append_iff.mp h with ⟨inner, rfl, hlast⟩ | ⟨behind, hfront, hback⟩
    · -- the quote is that of the last character: its own backslash follows an even number of others
      rw [front_of_literalChar_eq hlast, finalBackslashes_concat_backslash]
      exact (even_finalBackslashes cs).add_one
    · cases behind with
      | nil =>
        have hnothing : [] = ['\x5c'] := front_of_literalChar_eq hback.symm
        cases hnothing
      | cons d behind =>
        obtain ⟨rfl, _⟩ := List.cons.inj hback
        exact ih hfront

/-! ## Whole literals -/

/-- Undoing the escapes gives a value back. -/
theorem undoEscapes_flatMap_literalChar (cs : List Char) : undoEscapes (cs.flatMap literalChar) = cs := by
  induction cs with
  | nil => rfl
  | cons c rest ih => rw [List.flatMap_cons, undoEscapes_literalChar_append, ih]

/-- A literal is read to its last quote, whatever stands behind it. -/
theorem splitLiteral_flatMap_literalChar (cs behind : List Char) :
    splitLiteral (cs.flatMap literalChar ++ '\x22' :: behind) = some (cs.flatMap literalChar, behind) := by
  induction cs with
  | nil => rfl
  | cons c rest ih =>
    rw [List.flatMap_cons, List.append_assoc, splitLiteral_literalChar_append, ih]
    rfl

/-- For C++, the value of the literal of a text is this text, unless it has a line break: then there is no such
literal. -/
theorem literalValue?_flatMap_literalChar (e : Escapes) (cs : List Char) :
    literalValue? e (cs.flatMap literalChar) = if '\n' ∈ cs then none else some cs := by
  rw [literalValue?]
  induction cs with
  | nil => rfl
  | cons c rest ih =>
    rw [List.flatMap_cons, literalFrom_literalChar_append, ih]
    by_cases hbreak : c = '\n'
    · simp [hbreak]
    · by_cases hrest : '\n' ∈ rest
      · simp [hrest]
      · simp [hrest, Ne.symm hbreak, hbreak]

/-- A string literal starts and ends with a quote. A quote in between stands behind an odd number of backslashes and the
last one behind an even number; undoing the escapes in between gives the value back. So no two values have the same
literal, and a source in which a literal stands is read on from behind its last quote. For C++ the literal means its
value as well, whatever other escapes there are, unless the value has a line break: then it is no literal. -/
theorem stringLiteral_delimits_itself (s : String) :
    ∃ body : List Char, (stringLiteral s).toList = '\x22' :: body ++ ['\x22'] ∧
      (∀ front back, body = front ++ '\x22' :: back → Odd (finalBackslashes front)) ∧
      Even (finalBackslashes body) ∧
      undoEscapes body = s.toList ∧
      (∀ t : String, stringLiteral t = stringLiteral s → t = s) ∧
      (∀ behind : List Char, splitLiteral (body ++ '\x22' :: behind) = some (body, behind)) ∧
      ∀ e : Escapes, literalValue? e body = if '\n' ∈ s.toList then none else some s.toList := by
  have htext (t : String) : (stringLiteral t).toList = '\x22' :: t.toList.flatMap literalChar ++ ['\x22'] := by
    rw [stringLiteral, String.toList_ofList, escaped_eq_flatMap]
  refine ⟨s.toList.flatMap literalChar, htext s, fun front back => odd_finalBackslashes, even_finalBackslashes _,
    undoEscapes_flatMap_literalChar _, ?_, splitLiteral_flatMap_literalChar _,
    fun e => literalValue?_flatMap_literalChar e _⟩
  intro t h
  have hbodies : t.toList.flatMap literalChar = s.toList.flatMap literalChar := by
    have htexts := congrArg String.toList h
    rw [htext, htext] at htexts
    simpa using htexts
  rw [← String.toList_inj, ← undoEscapes_flatMap_literalChar t.toList, hbodies, undoEscapes_flatMap_literalChar]

/-- A name with a quote and a backslash at its end does not let the literal of a report run on. -/
example : stringLiteral "a\"\\" = "\"a\\\"\\\\\"" ∧
    splitLiteral "a\\\"\\\\\", x)".toList = some ("a\\\"\\\\".toList, ", x)".toList) := by decide

end TensorBridge
