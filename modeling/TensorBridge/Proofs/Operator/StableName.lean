import TensorBridge.Proofs.Operator.RoundTrip

/-!
# Names that stay

A text in snake case has the words of the text that it comes from. A text in Pascal case may not: words of one letter
merge into a row of capitals, which is one word. But this happens once only. A text that is in Pascal case already has
words of which the second one on starts at a capital, and bringing it into Pascal case once more leaves every such start
in its place. So from the second time on a text in Pascal case stays as it is, and so does the name of an operator that
is written and read again.
-/

namespace TensorBridge

/-! ## Where words start in the new case -/

/-- A character in the case of its place. -/
def placed (start : Bool) (c : Char) : Char := if start then c.toUpper else c.toLower

/-- The case of a character's place does not change its small form. -/
theorem toLower_placed (start : Bool) (c : Char) : (placed start c).toLower = c.toLower := by
  cases start with
  | true => exact Char.toLower_toUpper_eq_toLower c
  | false => exact Char.toLower_toLower_eq_toLower c

/-- A letter or digit stays one in the case of its place. -/
theorem isAlphanum_placed {c : Char} (hc : c.isAlphanum = true) (start : Bool) :
    (placed start c).isAlphanum = true := by
  cases start with
  | true => exact isAlphanum_toUpper hc
  | false => exact isAlphanum_toLower hc

/-- The first character of a text is put in the case of its place, and what follows is a text of its own. -/
theorem recase_cutWords_cons {c : Char} (hc : c.isAlphanum = true) (start : Bool) (rest : List Char) :
    ∃ rest', recase start (cutWords (c :: rest)) = placed start c :: rest' := by
  obtain ⟨cut, hcut⟩ := cutWords_cons c rest
  rw [hcut, recase, if_pos hc]
  exact ⟨_, rfl⟩

/-- Only a capital stays one in the case of its place, unless a small letter is made one. -/
theorem isUpper_of_placed {a : Char} {start : Bool} (hfirst : start = true → a.isLower = false)
    (h : (placed start a).isUpper = true) : a.isUpper = true := by
  cases start with
  | false => exact absurd h (by simp [placed, Char.isUpper_toLower_eq_false])
  | true =>
    have halpha : a.isAlpha = true := (Char.isUpper_toUpper_eq_isAlpha a).symm.trans h
    rwa [Char.isAlpha, hfirst rfl, Bool.or_false] at halpha

/-- A small letter stands where it stood behind a capital. -/
theorem head_recase_of_isLower {b c : Char} {rest rest' : List Char} (hc : c.isLower = true) {start : Bool}
    (hb : b.isAlphanum = true) (hrest : recase start (cutWords (b :: c :: rest)) = placed start b :: rest') :
    rest'.head? = some c := by
  have hsmall : c.isUpper = false := isUpper_of_isLower hc
  have halphanum : c.isAlphanum = true := by rw [Char.isAlphanum, Char.isAlpha, hc, Bool.or_true, Bool.true_or]
  have hinside : startsWord b c rest = false := by rw [startsWord, hsmall, Bool.false_and]
  obtain ⟨more, hmore⟩ := recase_cutWords_cons halphanum false rest
  rw [recase_cutWords_cons_cons hb, hinside, hmore] at hrest
  obtain ⟨_, rfl⟩ := List.cons.inj hrest
  exact congrArg some (Char.toLower_eq_of_not_isUpper (by simp [hsmall]))

/-- In a text of letters and digits in its new case, words start where they did before: only the first character, which
is no small letter, and the characters at which words start are capitals in it. -/
theorem startsWord_placed {a b : Char} {rest rest' : List Char} (ha : a.isAlphanum = true) (hb : b.isAlphanum = true)
    {start : Bool} (hfirst : start = true → a.isLower = false)
    (hrest : recase (startsWord a b rest) (cutWords (b :: rest)) = placed (startsWord a b rest) b :: rest') :
    startsWord (placed start a) (placed (startsWord a b rest) b) rest' = startsWord a b rest := by
  cases hstart : startsWord a b rest with
  | false =>
    have hsmall : (placed false b).isUpper = false := Char.isUpper_toLower_eq_false b
    rw [startsWord, hsmall, Bool.false_and]
  | true =>
    have hupper : b.isUpper = true := (Bool.and_eq_true_iff.mp hstart).1
    have hkept : placed true b = b := Char.toUpper_eq_of_not_isLower (Char.not_isLower_of_isUpper hupper)
    rw [hstart, hkept] at hrest
    rw [hkept, startsWord_of_isUpper (isAlphanum_placed ha start) hupper, hupper, Bool.and_true]
    cases hcapital : (placed start a).isUpper with
    | false => rfl
    | true =>
      -- The word starts inside a row of capitals, so a small letter follows, and it stays one.
      have hnext := startsWord_of_isUpper ha hupper rest
      rw [hstart, isUpper_of_placed hfirst hcapital, hupper] at hnext
      cases rest with
      | nil => cases hnext
      | cons c rest =>
        have hc : c.isLower = true := hnext.symm
        rw [head_recase_of_isLower hc hb (by rw [hrest, hkept])]
        exact hc

/-- A letter or digit in small form stands in front of the first piece. -/
theorem map_splitRuns_cons {c : Char} (hc : c.isAlphanum = true) (cs : List Char) :
    (splitRuns (c :: cs)).map (List.map Char.toLower) =
      consLine c.toLower ((splitRuns cs).map (List.map Char.toLower)) := by
  rw [splitRuns, if_pos hc]
  cases splitRuns cs <;> rfl

/-- The pieces of a text of letters and digits do not change, apart from their case, if the text is put in its new
case. -/
theorem map_splitRuns_recase {cs : List Char} (hcs : ∀ c ∈ cs, c.isAlphanum = true) {start : Bool}
    (hfirst : start = true → ∀ c ∈ cs.head?, c.isLower = false) :
    (splitRuns (cutWords (recase start (cutWords cs)))).map (List.map Char.toLower) =
      (splitRuns (cutWords cs)).map (List.map Char.toLower) := by
  induction cs generalizing start with
  | nil => rfl
  | cons a rest ih =>
    obtain ⟨ha, hrest⟩ := List.forall_mem_cons.mp hcs
    have ha' := isAlphanum_placed ha start
    cases rest with
    | nil =>
      have hcut (c : Char) : cutWords [c] = [c] := rfl
      have hnew : recase start [a] = [placed start a] := by
        rw [recase, if_pos ha]
        rfl
      rw [hcut, hnew, hcut, map_splitRuns_cons ha', map_splitRuns_cons ha, toLower_placed]
    | cons b rest =>
      have hb := (List.forall_mem_cons.mp hrest).1
      have hnext : startsWord a b rest = true → ∀ c ∈ (b :: rest).head?, c.isLower = false := by
        rintro hstart c ⟨⟩
        exact Bool.eq_false_iff.mpr (Char.not_isLower_of_isUpper (Bool.and_eq_true_iff.mp hstart).1)
      have hpieces := ih hrest hnext
      obtain ⟨rest', hnew⟩ := recase_cutWords_cons hb (startsWord a b rest) rest
      have hspace (cs : List Char) : splitRuns (' ' :: cs) = [] :: splitRuns cs := rfl
      rw [hnew] at hpieces
      rw [recase_cutWords_cons_cons ha, hnew]
      change (splitRuns (cutWords (placed start a :: _))).map _ = _
      rw [cutWords, cutWords, startsWord_placed ha hb (fun hstart => hfirst hstart a rfl) hnew]
      split
      · rw [map_splitRuns_cons ha', map_splitRuns_cons ha, hspace, hspace, List.map_cons, List.map_cons, hpieces,
          toLower_placed]
      · rw [map_splitRuns_cons ha', map_splitRuns_cons ha, hpieces, toLower_placed]

/-- A text of letters and digits that does not start with a small letter keeps its words in its new case. -/
theorem wordChars_recase {cs : List Char} (hcs : ∀ c ∈ cs, c.isAlphanum = true)
    (hfirst : ∀ c ∈ cs.head?, c.isLower = false) : wordChars (recase true (cutWords cs)) = wordChars cs := by
  have hwords (cs : List Char) :
      wordChars cs = ((splitRuns (cutWords cs)).map (List.map Char.toLower)).filter (!·.isEmpty) := by
    rw [wordChars, cutAcronym_cutCamel, List.filter_map]
    refine congrArg (List.map (List.map Char.toLower)) (List.filter_congr fun w _ => ?_)
    cases w <;> rfl
  rw [hwords, hwords, map_splitRuns_recase hcs fun _ => hfirst]

/-! ## Texts that stay -/

/-- A text in Pascal case has the same words in Pascal case once more. -/
theorem words_pascalCase_pascalCase (text : String) :
    words (pascalCase (pascalCase text)) = words (pascalCase text) := by
  rw [words, words, toList_pascalCase (pascalCase text), wordChars_recase]
  · rw [toList_pascalCase]
    exact alphanum_of_mem_recase
  · rw [toList_pascalCase]
    intro c hc
    obtain ⟨rest, hrest⟩ := List.head?_eq_some_iff.mp hc
    exact head_recase hrest

/-- Texts with the same words are the same in Pascal case. -/
theorem pascalCase_eq_of_words {a b : String} (h : words a = words b) : pascalCase a = pascalCase b := by
  have hchars : wordChars a.toList = wordChars b.toList :=
    List.map_injective_iff.mpr (fun _ _ => String.ofList_inj.mp) h
  rw [pascalCase, pascalCase, hchars]

/-- A text in snake case has the words that it comes from. -/
theorem words_snakeCase (text : String) : words (snakeCase text) = words text := by
  rw [words, toList_snakeCase, wordChars_intercalate fun w hw => isWord_of_mem_wordChars hw]
  rfl

/-- A text stays in Pascal case from the second time on. -/
theorem pascalCase_iterate (text : String) (n : Nat) : pascalCase^[n + 2] text = pascalCase (pascalCase text) := by
  have hfixed : pascalCase (pascalCase (pascalCase text)) = pascalCase (pascalCase text) :=
    pascalCase_eq_of_words (words_pascalCase_pascalCase text)
  rw [Function.iterate_add_apply]
  exact Function.iterate_fixed hfixed n

/-- Data that an operator is written as after it was read from its own data describe it as it is. -/
theorem Operator.IsRead.read_again {o : Operator} (h : o.IsRead) (default : String) :
    ∃ o', (Operator.read o.toValue default).outcome = .ok o' ∧
      ∀ default', (Operator.read o'.toValue default').outcome = .ok o' := by
  obtain ⟨text, htext⟩ := h.name
  have hread := h.read_toValue default
  refine ⟨_, hread, fun default' => ?_⟩
  have hagain := (Operator.isRead_of_read hread).read_toValue default'
  have hname : pascalCase (pascalCase o.name) = pascalCase o.name := by
    rw [htext]
    exact pascalCase_iterate text 1
  rw [hagain, hname]

/-- A text in snake case has the words that it comes from and stays as it is. A text in Pascal case has the same words
in Pascal case once more, so it stays as it is from the second time on, and is the same in snake case. An operator that
was read is read from its own data with a name that no further reading changes. -/
theorem casing_reaches_normal_form :
    (∀ text, words (snakeCase text) = words text ∧ snakeCase (snakeCase text) = snakeCase text ∧
      words (pascalCase (pascalCase text)) = words (pascalCase text) ∧
      snakeCase (pascalCase (pascalCase text)) = snakeCase (pascalCase text) ∧
      ∀ n, pascalCase^[n + 2] text = pascalCase (pascalCase text)) ∧
    ∀ d default o, (Operator.read d default).outcome = .ok o →
      ∀ default', ∃ o', (Operator.read o.toValue default').outcome = .ok o' ∧
        ∀ default'', (Operator.read o'.toValue default'').outcome = .ok o' := by
  refine ⟨fun text => ?_, fun d default o hread => (Operator.isRead_of_read hread).read_again⟩
  have hwords := words_pascalCase_pascalCase text
  exact ⟨words_snakeCase text, snakeCase_snakeCase text, hwords, snakeCase_eq_iff.mpr hwords, pascalCase_iterate text⟩

/-- The name of an operator that is named by a row of letters changes once. -/
theorem casing_reaches_normal_form_letters :
    ∃ o o', (Operator.read (.object [("opName", .string "a_b_c")]) "x").outcome = .ok o ∧ o.name = "ABC" ∧
      (Operator.read o.toValue "x").outcome = .ok o' ∧ o'.name = "Abc" ∧
      (Operator.read o'.toValue "x").outcome = .ok o' := by
  have hread : (Operator.read (.object [("opName", .string "a_b_c")]) "x").outcome =
      .ok ⟨"ABC", "x", [], [], .string "DEVICE_CPU"⟩ := by rfl
  have hother : (Operator.read (Operator.toValue ⟨"ABC", "x", [], [], .string "DEVICE_CPU"⟩) "x").outcome =
      .ok ⟨"Abc", "x", [], [], .string "DEVICE_CPU"⟩ := by rfl
  obtain ⟨o', hagain, hkept⟩ := casing_reaches_normal_form.2 _ _ _ hread "x"
  obtain rfl := Except.ok.inj (hother.symm.trans hagain)
  exact ⟨_, _, hread, rfl, hother, rfl, hkept "x"⟩

/-- A row of capitals is parted in front of a word, and longer words keep their starts. -/
example : pascalCase (pascalCase "a_b_cd") = "AbCd" ∧ pascalCase "detect_edges" = "DetectEdges" := by decide

end TensorBridge
