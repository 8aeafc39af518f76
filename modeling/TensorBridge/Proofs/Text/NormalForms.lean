import Mathlib
import TensorBridge.Proofs.Text.Trimmed
import TensorBridge.Text.Uppercase
import TensorBridge.Text.Words

/-!
# Normal forms of texts

Names are brought into a form when they are read: trimmed, in snake case, or in Pascal case. Reading a trimmed text
or one in snake case leaves it as it is. A text in Pascal case is another matter: capitals in a row are one word, so
the text stays as it is only if every capital behind a capital is followed by a small letter. Its first letter stays
in any case.
-/

namespace TensorBridge

/-! ## ASCII letters and digits -/

/-- A digit is no letter. -/
theorem isAlpha_of_isDigit {c : Char} (h : c.isDigit = true) : c.isAlpha = false := by
  rw [← Bool.not_eq_true]
  intro hletter
  simp only [Char.isDigit, Char.isAlpha, Char.isUpper, Char.isLower, ge_iff_le, Bool.or_eq_true, Bool.and_eq_true,
    decide_eq_true_eq, UInt32.le_iff_toNat_le, Char.isValue, Char.reduceVal, UInt32.reduceToNat] at h hletter
  omega

/-- A letter or digit stays one in small form. -/
theorem isAlphanum_toLower {c : Char} (h : c.isAlphanum = true) : c.toLower.isAlphanum = true := by
  rw [Char.isAlphanum, Bool.or_eq_true] at h ⊢
  rw [Char.isAlpha_toLower_eq_isAlpha]
  refine h.imp_right fun hdigit => ?_
  have hletter := isAlpha_of_isDigit hdigit
  rw [Char.isAlpha, Bool.or_eq_false_iff] at hletter
  rwa [Char.toLower_eq_of_not_isUpper (by simp [hletter.1])]

/-- A letter or digit stays one in capital form. -/
theorem isAlphanum_toUpper {c : Char} (h : c.isAlphanum = true) : c.toUpper.isAlphanum = true := by
  rw [Char.isAlphanum, Bool.or_eq_true] at h ⊢
  rw [Char.isAlpha_toUpper_eq_isAlpha]
  refine h.imp_right fun hdigit => ?_
  have hletter := isAlpha_of_isDigit hdigit
  rw [Char.isAlpha, Bool.or_eq_false_iff] at hletter
  rwa [Char.toUpper_eq_of_not_isLower (by simp [hletter.2])]

/-- A capital is no small letter and no digit. -/
theorem not_isLower_or_isDigit {c : Char} (h : c.isUpper = true) : (c.isLower || c.isDigit) = false := by
  have hletter : c.isAlpha = true := by simp [Char.isAlpha, h]
  rw [Bool.or_eq_false_iff]
  refine ⟨by simpa using Char.not_isLower_of_isUpper h, ?_⟩
  rw [← Bool.not_eq_true]
  intro hdigit
  rw [isAlpha_of_isDigit hdigit] at hletter
  cases hletter

/-- A small letter is no capital. -/
theorem isUpper_of_isLower {c : Char} (h : c.isLower = true) : c.isUpper = false := by
  rw [← Bool.not_eq_true]
  exact fun hupper => Char.not_isLower_of_isUpper hupper h

/-- Among the ASCII letters and digits only the capitals are uppercase. -/
theorem isUpper_of_isUppercase {c : Char} (hc : c.isAlphanum = true) (h : isUppercase c = true) :
    c.isUpper = true := by
  have hascii : c.toNat < 0xC0 := by
    simp only [Char.isAlphanum, Char.isAlpha, Char.isUpper, Char.isLower, Char.isDigit, Bool.or_eq_true,
      Bool.and_eq_true, decide_eq_true_eq, ge_iff_le, UInt32.le_iff_toNat_le, Char.isValue, Char.reduceVal,
      UInt32.reduceToNat] at hc
    change c.val.toNat < 0xC0
    omega
  have hothers : ∀ run ∈ uppercaseRuns.tail, 0xC0 ≤ run.1 := by decide +kernel
  obtain ⟨run, hrun, hmatch⟩ := List.any_eq_true.mp h
  simp only [Bool.and_eq_true, decide_eq_true_eq] at hmatch
  rcases List.mem_cons.mp hrun with rfl | hrun
  · simp only [Char.isUpper, decide_eq_true_eq, ge_iff_le, UInt32.le_iff_toNat_le]
    exact hmatch.1
  · have hle := hothers run hrun
    omega

/-! ## Where words start -/

/-- Whether a word starts at a character behind another one and in front of the rest. -/
def startsWord (a b : Char) (rest : List Char) : Bool :=
  b.isUpper && (a.isLower || a.isDigit || (a.isUpper && rest.head?.any Char.isLower))

/-- A word starts only behind a letter or digit. -/
theorem startsWord_of_not_isAlphanum {a : Char} (ha : a.isAlphanum = false) (b : Char) (rest : List Char) :
    startsWord a b rest = false := by
  rw [Char.isAlphanum, Char.isAlpha, Bool.or_eq_false_iff, Bool.or_eq_false_iff] at ha
  rw [startsWord, ha.1.1, ha.1.2, ha.2, Bool.false_and, Bool.or_false, Bool.or_false, Bool.and_false]

/-- Puts a space in front of every character at which a word starts. -/
def cutWords : List Char → List Char
  | a :: b :: rest => if startsWord a b rest then a :: ' ' :: cutWords (b :: rest) else a :: cutWords (b :: rest)
  | short => short

/-- Nothing is cut behind a capital by the first cut. -/
theorem cutCamel_cons_of_isUpper {a : Char} (h : a.isUpper = true) (rest : List Char) :
    cutCamel (a :: rest) = a :: cutCamel rest := by
  cases rest with
  | nil => rfl
  | cons b rest => rw [cutCamel, not_isLower_or_isDigit h, Bool.false_and, if_neg Bool.false_ne_true]

/-- The first cut, character by character. -/
theorem cutCamel_cons_cons (a b : Char) (rest : List Char) :
    cutCamel (a :: b :: rest) =
      if (a.isLower || a.isDigit) && b.isUpper then a :: ' ' :: cutCamel (b :: rest)
      else a :: cutCamel (b :: rest) := by
  rw [cutCamel]
  split
  · next h => rw [cutCamel_cons_of_isUpper (Bool.and_eq_true_iff.mp h).2]
  · rfl

/-- The first cut leaves the first character in its place. -/
theorem cutCamel_cons (c : Char) (rest : List Char) : ∃ rest', cutCamel (c :: rest) = c :: rest' := by
  cases rest with
  | nil => exact ⟨[], rfl⟩
  | cons b rest =>
    rw [cutCamel]
    split
    · exact ⟨_, rfl⟩
    · exact ⟨_, rfl⟩

/-- Nothing is cut by the second cut behind a character that is no capital. -/
theorem cutAcronym_cons_of_not_isUpper {a : Char} (h : a.isUpper = false) (rest : List Char) :
    cutAcronym (a :: rest) = a :: cutAcronym rest := by
  match rest with
  | [] => rfl
  | [b] => rfl
  | b :: c :: rest => rw [cutAcronym, h, Bool.false_and, Bool.false_and, if_neg Bool.false_ne_true]

/-- The second cut, character by character. -/
theorem cutAcronym_cons_cons_cons (a b c : Char) (rest : List Char) :
    cutAcronym (a :: b :: c :: rest) =
      if a.isUpper && b.isUpper && c.isLower then a :: ' ' :: cutAcronym (b :: c :: rest)
      else a :: cutAcronym (b :: c :: rest) := by
  rw [cutAcronym]
  split
  · next h =>
    have hc := isUpper_of_isLower (Bool.and_eq_true_iff.mp h).2
    have hnext : cutAcronym (b :: c :: rest) = b :: cutAcronym (c :: rest) := by
      match rest with
      | [] => rfl
      | d :: rest => rw [cutAcronym, hc, Bool.and_false, Bool.false_and, if_neg Bool.false_ne_true]
    rw [hnext, cutAcronym_cons_of_not_isUpper hc]
  · rfl

/-- Both cuts together put a space in front of every character at which a word starts. -/
theorem cutAcronym_cutCamel (cs : List Char) : cutAcronym (cutCamel cs) = cutWords cs := by
  fun_induction cutWords cs with
  | case1 a b rest hstart ih =>
    rw [startsWord, Bool.and_eq_true, Bool.or_eq_true] at hstart
    obtain ⟨hb, hcamel | hacronym⟩ := hstart
    · have ha : a.isUpper = false := by
        rw [← Bool.not_eq_true]
        intro ha
        rw [not_isLower_or_isDigit ha] at hcamel
        cases hcamel
      rw [cutCamel_cons_cons, if_pos (by rw [hcamel, hb]; rfl), cutAcronym_cons_of_not_isUpper ha,
        cutAcronym_cons_of_not_isUpper rfl, ih]
    · obtain ⟨ha, hnext⟩ := Bool.and_eq_true_iff.mp hacronym
      cases rest with
      | nil => cases hnext
      | cons c rest =>
        obtain ⟨cut, hcut⟩ := cutCamel_cons c rest
        have hsmall : c.isLower = true := by simpa using hnext
        rw [cutCamel_cons_of_isUpper hb, hcut] at ih
        rw [cutCamel_cons_of_isUpper ha, cutCamel_cons_of_isUpper hb, hcut, cutAcronym_cons_cons_cons,
          if_pos (by rw [ha, hb, hsmall]; rfl), ih]
  | case2 a b rest hstart ih =>
    have hcamel : ((a.isLower || a.isDigit) && b.isUpper) = false := by
      rw [← Bool.not_eq_true, Bool.and_eq_true]
      rintro ⟨ha, hb⟩
      exact hstart (by rw [startsWord, hb, ha]; rfl)
    rw [cutCamel_cons_cons, hcamel, if_neg Bool.false_ne_true, ← ih]
    obtain ⟨cut, hcut⟩ := cutCamel_cons b rest
    rw [hcut]
    cases cut with
    | nil => rfl
    | cons c cut =>
      rw [cutAcronym_cons_cons_cons, if_neg]
      rw [Bool.and_eq_true, Bool.and_eq_true]
      rintro ⟨⟨ha, hb⟩, hc⟩
      rw [cutCamel_cons_of_isUpper hb, List.cons.injEq] at hcut
      -- The capital `b` is not cut from what follows it, so the small letter `c` stands behind it already.
      have hnext : rest.head?.any Char.isLower = true := by
        cases rest with
        | nil => cases hcut.2
        | cons d rest =>
          obtain ⟨cut', hcut'⟩ := cutCamel_cons d rest
          obtain ⟨rfl, _⟩ := List.cons.inj (hcut'.symm.trans hcut.2)
          exact hc
      exact hstart (by rw [startsWord, hb, ha, hnext, Bool.true_and, Bool.true_and, Bool.or_true])
  | case3 short hshort =>
    match short with
    | [] => rfl
    | [a] => rfl
    | a :: b :: rest => exact absurd rfl (hshort a b rest)

/-- All cuts leave the first character in its place. -/
theorem cutWords_cons (c : Char) (rest : List Char) : ∃ rest', cutWords (c :: rest) = c :: rest' := by
  cases rest with
  | nil => exact ⟨[], rfl⟩
  | cons b rest =>
    rw [cutWords]
    split
    · exact ⟨_, rfl⟩
    · exact ⟨_, rfl⟩

/-- Without capitals nothing is cut. -/
theorem cutWords_of_small {cs : List Char} (h : ∀ c ∈ cs, c.isUpper = false) : cutWords cs = cs := by
  fun_induction cutWords cs with
  | case1 a b rest hstart ih =>
    rw [startsWord, h b (by simp), Bool.false_and] at hstart
    cases hstart
  | case2 a b rest _ ih => rw [ih fun c hc => h c (List.mem_cons_of_mem a hc)]
  | case3 short _ => rfl

/-- A character that is no letter or digit is cut from neither side. -/
theorem cutWords_separator {separator : Char} (hseparator : separator.isAlphanum = false) (cs rest : List Char) :
    cutWords (cs ++ separator :: rest) = cutWords cs ++ separator :: cutWords rest := by
  obtain ⟨⟨hupper, hlower⟩, _⟩ :
      (separator.isUpper = false ∧ separator.isLower = false) ∧ separator.isDigit = false := by
    simpa only [Char.isAlphanum, Char.isAlpha, Bool.or_eq_false_iff] using hseparator
  have hfirst : cutWords (separator :: rest) = separator :: cutWords rest := by
    cases rest with
    | nil => rfl
    | cons b rest => rw [cutWords, startsWord_of_not_isAlphanum hseparator, if_neg Bool.false_ne_true]
  have hsame (a b : Char) (cs : List Char) : startsWord a b (cs ++ separator :: rest) = startsWord a b cs := by
    rw [startsWord, startsWord]
    cases cs <;> simp [hlower]
  fun_induction cutWords cs with
  | case1 a b cs hstart ih =>
    rw [List.cons_append, List.cons_append, cutWords, hsame, if_pos hstart, ← List.cons_append, ih]
    rfl
  | case2 a b cs hstart ih =>
    rw [List.cons_append, List.cons_append, cutWords, hsame, if_neg hstart, ← List.cons_append, ih]
    rfl
  | case3 short hshort =>
    match short with
    | [] => exact hfirst
    | [a] =>
      have hstart : startsWord a separator rest = false := by rw [startsWord, hupper, Bool.false_and]
      rw [List.singleton_append, cutWords, hstart, if_neg Bool.false_ne_true, hfirst]
      rfl
    | a :: b :: rest => exact absurd rfl (hshort a b rest)

/-! ## Snake case -/

/-- A word in small letters: at least one ASCII letter or digit, and no capital. -/
structure IsWord (w : List Char) : Prop where
  ne_nil : w ≠ []
  alphanum : ∀ c ∈ w, c.isAlphanum = true
  small : ∀ c ∈ w, c.isUpper = false

/-- The pieces between separators consist of letters and digits. -/
theorem alphanum_of_mem_splitRuns {cs : List Char} : ∀ w ∈ splitRuns cs, ∀ c ∈ w, c.isAlphanum = true := by
  induction cs with
  | nil => simp [splitRuns]
  | cons c rest ih =>
    unfold splitRuns
    split
    · next hc =>
      cases hpieces : splitRuns rest with
      | nil => simpa [consLine] using hc
      | cons piece pieces =>
        rw [hpieces, List.forall_mem_cons] at ih
        simp only [consLine, List.forall_mem_cons]
        exact ⟨⟨hc, ih.1⟩, ih.2⟩
    · simpa using ih

/-- A word alone is one piece. -/
theorem splitRuns_word {w : List Char} (hw : ∀ c ∈ w, c.isAlphanum = true) : splitRuns w = [w] := by
  induction w with
  | nil => rfl
  | cons c rest ih =>
    rw [List.forall_mem_cons] at hw
    rw [splitRuns, if_pos hw.1, ih hw.2, consLine]

/-- There is at least one piece. -/
theorem splitRuns_ne_nil (cs : List Char) : splitRuns cs ≠ [] := by
  cases cs with
  | nil => exact List.cons_ne_nil _ _
  | cons c rest =>
    unfold splitRuns consLine
    split
    · split <;> exact List.cons_ne_nil _ _
    · exact List.cons_ne_nil _ _

/-- The pieces on both sides of a separator. -/
theorem splitRuns_separator {separator : Char} (hseparator : separator.isAlphanum = false) (cs rest : List Char) :
    splitRuns (cs ++ separator :: rest) = splitRuns cs ++ splitRuns rest := by
  induction cs with
  | nil =>
    have hfirst : splitRuns (separator :: rest) = [] :: splitRuns rest := by
      rw [splitRuns, if_neg (by simp [hseparator])]
    exact hfirst
  | cons c cs ih =>
    rw [List.cons_append, splitRuns, splitRuns, ih]
    split
    · cases hpieces : splitRuns cs with
      | nil => exact absurd hpieces (splitRuns_ne_nil cs)
      | cons piece pieces => rfl
    · rfl

/-- A word in front of a separator is the first piece. -/
theorem splitRuns_word_cons {w : List Char} (hw : ∀ c ∈ w, c.isAlphanum = true) {separator : Char}
    (hseparator : separator.isAlphanum = false) (cs : List Char) :
    splitRuns (w ++ separator :: cs) = w :: splitRuns cs := by
  rw [splitRuns_separator hseparator, splitRuns_word hw]
  rfl

/-- The first word, an underscore, and the others. -/
theorem intercalate_cons_cons (w w' : List Char) (ws : List (List Char)) :
    List.intercalate ['_'] (w :: w' :: ws) = w ++ '_' :: List.intercalate ['_'] (w' :: ws) := by
  simp [List.intercalate]

/-- A condition on the characters of words with underscores between them. -/
theorem forall_mem_intercalate {P : Char → Prop} (hunderscore : P '_') {ws : List (List Char)}
    (hws : ∀ w ∈ ws, ∀ c ∈ w, P c) : ∀ c ∈ List.intercalate ['_'] ws, P c := by
  induction ws with
  | nil => simp [List.intercalate]
  | cons w rest ih =>
    rw [List.forall_mem_cons] at hws
    cases rest with
    | nil => simpa [List.intercalate] using hws.1
    | cons w' rest =>
      rw [intercalate_cons_cons, List.forall_mem_append, List.forall_mem_cons]
      exact ⟨hws.1, hunderscore, ih hws.2⟩

/-- Words with underscores between them have no capitals. -/
theorem small_intercalate {ws : List (List Char)} (hws : ∀ w ∈ ws, IsWord w) :
    ∀ c ∈ List.intercalate ['_'] ws, c.isUpper = false :=
  forall_mem_intercalate (by decide) fun w hw => (hws w hw).small

/-- Words with underscores between them are split at these. -/
theorem splitRuns_intercalate {ws : List (List Char)} (hws : ∀ w ∈ ws, IsWord w) (hne : ws ≠ []) :
    splitRuns (List.intercalate ['_'] ws) = ws := by
  induction ws with
  | nil => contradiction
  | cons w rest ih =>
    rw [List.forall_mem_cons] at hws
    cases rest with
    | nil =>
      rw [show List.intercalate ['_'] [w] = w by simp [List.intercalate]]
      exact splitRuns_word hws.1.alphanum
    | cons w' rest =>
      rw [intercalate_cons_cons, splitRuns_word_cons hws.1.alphanum rfl, ih hws.2 (List.cons_ne_nil _ _)]

/-- The words of a text are words. -/
theorem isWord_of_mem_wordChars {cs w : List Char} (h : w ∈ wordChars cs) : IsWord w := by
  obtain ⟨piece, hpiece, rfl⟩ := List.mem_map.mp h
  rw [List.mem_filter] at hpiece
  refine ⟨by simpa using hpiece.2, ?_, ?_⟩
  · rw [List.forall_mem_map]
    exact fun c hc => isAlphanum_toLower (alphanum_of_mem_splitRuns piece hpiece.1 c hc)
  · rw [List.forall_mem_map]
    exact fun c _ => Char.isUpper_toLower_eq_false c

/-- Words with underscores between them have these words. -/
theorem wordChars_intercalate {ws : List (List Char)} (hws : ∀ w ∈ ws, IsWord w) :
    wordChars (List.intercalate ['_'] ws) = ws := by
  have hsmall := small_intercalate hws
  rw [wordChars, cutAcronym_cutCamel, cutWords_of_small hsmall]
  by_cases hne : ws = []
  · rw [hne]
    rfl
  · have hfilter : ws.filter (!·.isEmpty) = ws :=
      List.filter_eq_self.mpr fun w hw => by simpa using (hws w hw).ne_nil
    rw [splitRuns_intercalate hws hne, hfilter]
    refine (List.map_congr_left (g := id) fun w hw => ?_).trans (List.map_id ws)
    refine (List.map_congr_left (g := id) fun c hc => ?_).trans (List.map_id w)
    exact Char.toLower_eq_of_not_isUpper (by simp [(hws w hw).small c hc])

/-- The characters of a text in snake case. -/
theorem toList_snakeCase (text : String) :
    (snakeCase text).toList = List.intercalate ['_'] (wordChars text.toList) := by
  rw [snakeCase, String.toList_intercalate, words, List.map_map]
  refine congrArg (List.intercalate ['_']) ?_
  exact (List.map_congr_left (g := id) fun w _ => String.toList_ofList).trans (List.map_id _)

/-- A condition on the characters of a text in snake case. -/
theorem forall_mem_snakeCase {P : Char → Prop} (hunderscore : P '_') (hword : ∀ c : Char, c.isAlphanum = true → P c)
    (text : String) : ∀ c ∈ (snakeCase text).toList, P c := by
  rw [toList_snakeCase]
  exact forall_mem_intercalate hunderscore fun w hw c hc => hword c ((isWord_of_mem_wordChars hw).alphanum c hc)

/-- A text in snake case is left as it is. -/
theorem snakeCase_snakeCase (text : String) : snakeCase (snakeCase text) = snakeCase text := by
  rw [← String.toList_inj, toList_snakeCase, toList_snakeCase,
    wordChars_intercalate fun w hw => isWord_of_mem_wordChars hw]

/-- The words on both sides of a character that is no letter or digit. -/
theorem wordChars_separator {separator : Char} (hseparator : separator.isAlphanum = false) (cs rest : List Char) :
    wordChars (cs ++ separator :: rest) = wordChars cs ++ wordChars rest := by
  simp only [wordChars, cutAcronym_cutCamel]
  rw [cutWords_separator hseparator, splitRuns_separator hseparator, List.filter_append, List.map_append]

/-- The words of a text with an ending behind an underscore. -/
theorem words_append_underscore (text ending : String) :
    words (text ++ "_" ++ ending) = words text ++ words ending := by
  have hunderscore : ("_" : String).toList = ['_'] := rfl
  rw [words, String.toList_append, String.toList_append, hunderscore, List.append_assoc, List.singleton_append,
    wordChars_separator rfl, List.map_append]
  rfl

/-- Texts are the same in snake case if they have the same words. -/
theorem snakeCase_eq_iff {a b : String} : snakeCase a = snakeCase b ↔ words a = words b := by
  constructor
  · intro h
    rw [← String.toList_inj, toList_snakeCase, toList_snakeCase] at h
    have hwords := congrArg wordChars h
    rw [wordChars_intercalate fun w hw => isWord_of_mem_wordChars hw,
      wordChars_intercalate fun w hw => isWord_of_mem_wordChars hw] at hwords
    exact congrArg (List.map String.ofList) hwords
  · exact congrArg (String.intercalate "_")

/-! ## Pascal case -/

/-- The letters and digits of a text in small form, except where a word starts. -/
def recase (start : Bool) : List Char → List Char
  | [] => []
  | c :: rest =>
    if c.isAlphanum then (if start then c.toUpper else c.toLower) :: recase false rest else recase true rest

/-- A word with its first letter as a capital, in any case. -/
def capitalPiece (piece : List Char) : List Char := capitalWord (piece.map Char.toLower)

/-- The pieces of a text, each in small letters behind a capital, are its letters and digits in their new case. -/
theorem splitRuns_recase (cs : List Char) :
    ∃ piece pieces, splitRuns cs = piece :: pieces ∧
      recase false cs = piece.map Char.toLower ++ pieces.flatMap capitalPiece ∧
      recase true cs = capitalPiece piece ++ pieces.flatMap capitalPiece := by
  induction cs with
  | nil => exact ⟨[], [], rfl, rfl, rfl⟩
  | cons c rest ih =>
    obtain ⟨piece, pieces, hsplit, hsmall, hcapital⟩ := ih
    rw [splitRuns, recase, recase, hsplit]
    split
    · refine ⟨c :: piece, pieces, rfl, ?_, ?_⟩
      · rw [hsmall]
        rfl
      · rw [hsmall, capitalPiece, List.map_cons, capitalWord, Char.toUpper_toLower_eq_toUpper]
        rfl
    · exact ⟨[], piece :: pieces, rfl, hcapital, hcapital⟩

/-- Empty pieces leave nothing. -/
theorem flatMap_filter_isEmpty (pieces : List (List Char)) :
    (pieces.filter (!·.isEmpty)).flatMap capitalPiece = pieces.flatMap capitalPiece := by
  induction pieces with
  | nil => rfl
  | cons piece pieces ih =>
    cases piece with
    | nil => exact ih
    | cons c piece => exact congrArg (capitalPiece (c :: piece) ++ ·) ih

/-- The characters of a text in Pascal case. -/
theorem toList_pascalCase (text : String) : (pascalCase text).toList = recase true (cutWords text.toList) := by
  obtain ⟨piece, pieces, hsplit, _, hcapital⟩ := splitRuns_recase (cutWords text.toList)
  rw [pascalCase, String.toList_ofList, wordChars, cutAcronym_cutCamel, List.flatMap_map]
  change (List.filter _ _).flatMap capitalPiece = _
  rw [flatMap_filter_isEmpty, hsplit, hcapital, List.flatMap_cons]

/-- A text that starts with a capital starts with it in Pascal case. -/
theorem pascalCase_cons_of_isUpper {text : String} {c : Char} {rest : List Char} (htext : text.toList = c :: rest)
    (hc : c.isUpper = true) : ∃ rest', (pascalCase text).toList = c :: rest' := by
  obtain ⟨cut, hcut⟩ := cutWords_cons c rest
  have halphanum : c.isAlphanum = true := by simp [Char.isAlphanum, Char.isAlpha, hc]
  rw [toList_pascalCase, htext, hcut, recase, if_pos halphanum, if_pos rfl,
    Char.toUpper_eq_of_not_isLower (Char.not_isLower_of_isUpper hc)]
  exact ⟨_, rfl⟩

/-- A text in its new case consists of letters and digits. -/
theorem alphanum_of_mem_recase {start : Bool} {cs : List Char} : ∀ c ∈ recase start cs, c.isAlphanum = true := by
  fun_induction recase start cs with
  | case1 => exact List.forall_mem_nil _
  | case2 start c rest hc ih =>
    rw [List.forall_mem_cons]
    refine ⟨?_, ih⟩
    split
    · exact isAlphanum_toUpper hc
    · exact isAlphanum_toLower hc
  | case3 start c rest _ ih => exact ih

/-- The first character of a text in Pascal case is no small letter. -/
theorem head_recase {cs rest : List Char} {c : Char} (h : recase true cs = c :: rest) : c.isLower = false := by
  induction cs with
  | nil => cases h
  | cons d cs ih =>
    rw [recase] at h
    split at h
    · obtain ⟨rfl, _⟩ := List.cons.inj h
      exact Char.isLower_toUpper_eq_false d
    · exact ih h

/-- The first character of a text in Pascal case is an ASCII capital, if it is uppercase at all. -/
theorem isUpper_of_pascalCase {text : String} {c : Char} {rest : List Char}
    (h : (pascalCase text).toList = c :: rest) (hc : isUppercase c = true) : c.isUpper = true := by
  rw [toList_pascalCase] at h
  exact isUpper_of_isUppercase (alphanum_of_mem_recase c (h ▸ List.mem_cons_self)) hc

/-! ## Pascal case once more -/

/-- Whether every capital behind a capital is followed by a small letter. -/
def capitalsApart : List Char → Bool
  | a :: b :: rest => (!(a.isUpper && b.isUpper) || rest.head?.any Char.isLower) && capitalsApart (b :: rest)
  | _ => true

/-- Behind a letter or digit, a word starts at a capital unless this stands in a row of capitals that goes on. -/
theorem startsWord_of_isUpper {a b : Char} (ha : a.isAlphanum = true) (hb : b.isUpper = true) (rest : List Char) :
    startsWord a b rest = (!(a.isUpper && b.isUpper) || rest.head?.any Char.isLower) := by
  rw [startsWord, hb, Bool.true_and, Bool.and_true]
  cases hupper : a.isUpper with
  | true => rw [not_isLower_or_isDigit hupper, Bool.false_or, Bool.true_and, Bool.not_true, Bool.false_or]
  | false =>
    have hother : (a.isLower || a.isDigit) = true := by
      simpa only [Char.isAlphanum, Char.isAlpha, hupper, Bool.false_or] using ha
    rw [hother, Bool.true_or, Bool.not_false, Bool.true_or]

/-- A character behind a letter or digit has the case of its place if it is no capital that goes on a row of them. -/
theorem recased_eq_iff {a : Char} (ha : a.isAlphanum = true) (b : Char) (rest : List Char) :
    (if startsWord a b rest then b.toUpper else b.toLower) = b ↔
      (!(a.isUpper && b.isUpper) || rest.head?.any Char.isLower) = true := by
  cases hb : b.isUpper with
  | false =>
    have hstart : startsWord a b rest = false := by rw [startsWord, hb, Bool.false_and]
    rw [hstart, if_neg Bool.false_ne_true, Char.toLower_eq_of_not_isUpper (by simp [hb])]
    simp
  | true =>
    have hlower : b.toLower ≠ b := by
      intro heq
      have hsmall := Char.isUpper_toLower_eq_false b
      rw [heq, hb] at hsmall
      cases hsmall
    rw [← hb, ← startsWord_of_isUpper ha hb, Char.toUpper_eq_of_not_isLower (Char.not_isLower_of_isUpper hb)]
    split
    · next hstart => exact iff_of_true rfl hstart
    · next hstart => exact iff_of_false hlower hstart

/-- The case of a letter or digit is that of its place, and what follows it is recased from the next place on. -/
theorem recase_cutWords_cons_cons {a : Char} (ha : a.isAlphanum = true) (start : Bool) (b : Char) (rest : List Char) :
    recase start (cutWords (a :: b :: rest)) =
      (if start then a.toUpper else a.toLower) :: recase (startsWord a b rest) (cutWords (b :: rest)) := by
  rw [cutWords]
  cases startsWord a b rest with
  | true =>
    rw [if_pos rfl, recase, if_pos ha]
    rfl
  | false => rw [if_neg Bool.false_ne_true, recase, if_pos ha]

/-- Letters and digits are left in their case if the first one has it and the capitals are apart. -/
theorem recase_cutWords_eq_iff {cs : List Char} (hcs : ∀ c ∈ cs, c.isAlphanum = true) (start : Bool) :
    recase start (cutWords cs) = cs ↔
      (∀ c ∈ cs.head?, (if start then c.toUpper else c.toLower) = c) ∧ capitalsApart cs = true := by
  induction cs generalizing start with
  | nil => simp [cutWords, recase, capitalsApart]
  | cons a rest ih =>
    rw [List.forall_mem_cons] at hcs
    cases rest with
    | nil => simp [cutWords, recase, capitalsApart, hcs.1]
    | cons b rest =>
      rw [recase_cutWords_cons_cons hcs.1, List.cons.injEq, ih hcs.2, capitalsApart, Bool.and_eq_true,
        ← recased_eq_iff hcs.1]
      simp only [List.head?_cons, Option.mem_some_iff, forall_eq']

/-- A text in Pascal case is left as it is exactly if every capital behind a capital is followed by a small
letter. -/
theorem pascalCase_pascalCase_eq_iff (text : String) :
    pascalCase (pascalCase text) = pascalCase text ↔ capitalsApart (pascalCase text).toList = true := by
  rw [← String.toList_inj, toList_pascalCase (pascalCase text), recase_cutWords_eq_iff]
  · rw [toList_pascalCase, and_iff_right_iff_imp]
    intro _ c hc
    obtain ⟨rest, hrest⟩ : ∃ rest, recase true (cutWords text.toList) = c :: rest := List.head?_eq_some_iff.mp hc
    exact Char.toUpper_eq_of_not_isLower (by simp [head_recase hrest])
  · rw [toList_pascalCase]
    exact alphanum_of_mem_recase

/-- The capitals of a row of words of one letter are not apart. -/
example : capitalsApart "ABC".toList = false ∧ capitalsApart "ABcDe".toList = true := by decide

end TensorBridge
