import TensorBridge.Proofs.Text.NormalForms

/-!
# Words in one scan

The words of a text are found in three steps: two cuts, one on the outcome of the other, and a split at everything that
is no letter or digit. Here they are described at once, by what stands next to each character: the words are the
longest rows of letters and digits inside which no word starts. So no letter or digit is lost, added or moved.
-/

namespace TensorBridge

/-! ## Longest rows -/

/-- A list whose first two members are related is split like its rest, with its first member in front of the first
row. -/
theorem splitBy_cons_of_related {α : Type} {r : α → α → Bool} {a b : α} {l run : List α} {runs : List (List α)}
    (hab : r a b = true) (hruns : (b :: l).splitBy r = run :: runs) :
    (a :: b :: l).splitBy r = (a :: run) :: runs := by
  obtain ⟨hflat, hempty, hchain, hends⟩ := List.splitBy_eq_iff.mp hruns
  obtain ⟨hrun, hrest⟩ := not_or.mp (mt List.mem_cons.mpr hempty)
  rw [List.forall_mem_cons] at hchain
  cases run with
  | nil => exact absurd rfl hrun
  | cons b' run =>
    obtain ⟨rfl, _⟩ := List.cons.inj hflat
    refine List.splitBy_eq_iff.mpr ⟨congrArg (a :: ·) hflat, ?_, ?_, ?_⟩
    · exact mt List.mem_cons.mp (not_or.mpr ⟨(List.cons_ne_nil _ _).symm, hrest⟩)
    · exact List.forall_mem_cons.mpr ⟨List.isChain_cons_cons.mpr ⟨hab, hchain.1⟩, hchain.2⟩
    · cases runs with
      | nil => exact List.isChain_singleton _
      | cons next runs =>
        obtain ⟨⟨_, hnext, hapart⟩, hends⟩ := List.isChain_cons_cons.mp hends
        refine List.isChain_cons_cons.mpr ⟨⟨List.cons_ne_nil _ _, hnext, ?_⟩, hends⟩
        rwa [List.getLast_cons_cons]

/-- A list whose first two members are not related is split between them. -/
theorem splitBy_cons_of_not_related {α : Type} {r : α → α → Bool} {a b : α} (l : List α) (hab : r a b = false) :
    (a :: b :: l).splitBy r = [a] :: (b :: l).splitBy r :=
  List.splitBy_append_cons (l := [a]) l (by simpa using hab)

/-! ## The scan -/

/-- The characters of a text, each with what comes after it. -/
def spots : List Char → List (Char × List Char)
  | [] => []
  | c :: rest => (c, rest) :: spots rest

/-- Whether neighbours in a text stand in one word: both are letters or digits, and no word starts at the second. -/
def inOneWord (a b : Char × List Char) : Bool :=
  a.1.isAlphanum && b.1.isAlphanum && !startsWord a.1 b.1 b.2

/-- The longest rows of characters all of whose neighbours stand in one word. -/
def characterRuns (cs : List Char) : List (List Char) :=
  ((spots cs).splitBy inOneWord).map (List.map Prod.fst)

/-- The longest rows of letters and digits inside which no word starts. -/
def wordRuns (cs : List Char) : List (List Char) :=
  (characterRuns cs).filter fun run => run.all Char.isAlphanum

/-- The rows of two characters and a rest, the first two in one word. -/
theorem characterRuns_cons_of_inOneWord {a b : Char} {rest run : List Char} {runs : List (List Char)}
    (hab : inOneWord (a, b :: rest) (b, rest) = true) (hruns : characterRuns (b :: rest) = run :: runs) :
    characterRuns (a :: b :: rest) = (a :: run) :: runs := by
  obtain ⟨first, others, hsplit, rfl, rfl⟩ := List.map_eq_cons_iff.mp hruns
  exact congrArg (List.map (List.map Prod.fst)) (splitBy_cons_of_related hab hsplit)

/-- The rows of two characters and a rest, the first two not in one word. -/
theorem characterRuns_cons_of_not_inOneWord {a b : Char} {rest : List Char}
    (hab : inOneWord (a, b :: rest) (b, rest) = false) :
    characterRuns (a :: b :: rest) = [a] :: characterRuns (b :: rest) :=
  congrArg (List.map (List.map Prod.fst)) (splitBy_cons_of_not_related (spots rest) hab)

/-- The pieces between separators and the rows of a text that starts with a character: the first ones are the same if
the character is a letter or digit, and the others are the same up to separators. -/
inductive SameRuns (c : Char) : List (List Char) → List (List Char) → Prop
  | letter {run : List Char} {pieces runs : List (List Char)} (hrun : (c :: run).all Char.isAlphanum = true)
    (hothers : pieces.filter (!·.isEmpty) = runs.filter (·.all Char.isAlphanum)) :
    SameRuns c ((c :: run) :: pieces) ((c :: run) :: runs)
  | separator {pieces runs : List (List Char)} (hc : c.isAlphanum = false)
    (hothers : pieces.filter (!·.isEmpty) = runs.filter (·.all Char.isAlphanum)) :
    SameRuns c ([] :: pieces) ([c] :: runs)

/-- Pieces that are not empty are the rows of letters and digits. -/
theorem SameRuns.filter_eq {c : Char} {pieces runs : List (List Char)} (h : SameRuns c pieces runs) :
    pieces.filter (!·.isEmpty) = runs.filter (·.all Char.isAlphanum) := by
  cases h with
  | letter hrun hothers =>
    rw [List.filter_cons_of_pos rfl, List.filter_cons, if_pos hrun, hothers]
  | separator hc hothers =>
    rw [List.filter_cons_of_neg (by simp), List.filter_cons_of_neg (by simp [hc]), hothers]

/-- The pieces of a text that is cut wherever a word starts are its rows. -/
theorem sameRuns (c : Char) (rest : List Char) :
    SameRuns c (splitRuns (cutWords (c :: rest))) (characterRuns (c :: rest)) := by
  induction rest generalizing c with
  | nil =>
    have hcut : cutWords [c] = [c] := rfl
    cases hc : c.isAlphanum with
    | true =>
      rw [hcut, splitRuns_word (by simpa using hc)]
      exact .letter (by simpa using hc) rfl
    | false =>
      rw [hcut, splitRuns, if_neg (by simp [hc])]
      exact .separator hc rfl
  | cons d rest ih =>
    have hrest := ih d
    cases hc : c.isAlphanum with
    | false =>
      have hapart : inOneWord (c, d :: rest) (d, rest) = false := by rw [inOneWord, hc]; rfl
      rw [cutWords, startsWord_of_not_isAlphanum hc, if_neg Bool.false_ne_true, splitRuns, if_neg (by simp [hc]),
        characterRuns_cons_of_not_inOneWord hapart]
      exact .separator hc hrest.filter_eq
    | true =>
      cases hstart : startsWord c d rest with
      | true =>
        have hapart : inOneWord (c, d :: rest) (d, rest) = false := by
          rw [inOneWord, hstart, Bool.not_true, Bool.and_false]
        have hcut : splitRuns (c :: ' ' :: cutWords (d :: rest)) = [c] :: splitRuns (cutWords (d :: rest)) :=
          splitRuns_word_cons (w := [c]) (by simpa using hc) rfl _
        rw [cutWords, hstart, if_pos rfl, hcut, characterRuns_cons_of_not_inOneWord hapart]
        exact .letter (by simpa using hc) hrest.filter_eq
      | false =>
        rw [cutWords, hstart, if_neg Bool.false_ne_true, splitRuns, if_pos hc]
        generalize splitRuns (cutWords (d :: rest)) = pieces at hrest
        generalize hruns : characterRuns (d :: rest) = runs at hrest
        cases hrest with
        | letter hrun hothers =>
          have hd : d.isAlphanum = true := by simpa using (List.all_eq_true.mp hrun) d List.mem_cons_self
          have hjoined : inOneWord (c, d :: rest) (d, rest) = true := by rw [inOneWord, hc, hd, hstart]; rfl
          rw [characterRuns_cons_of_inOneWord hjoined hruns]
          exact .letter (by rw [List.all_cons, hc, hrun]; rfl) hothers
        | separator hd hothers =>
          have hapart : inOneWord (c, d :: rest) (d, rest) = false := by
            rw [inOneWord, hd, Bool.and_false, Bool.false_and]
          rw [characterRuns_cons_of_not_inOneWord hapart, hruns]
          refine .letter (by simpa using hc) ?_
          rw [List.filter_cons_of_neg (by simp [hd]), hothers]

/-- The words of a text are its longest rows of letters and digits inside which no word starts, in small letters. -/
theorem wordChars_eq_wordRuns (cs : List Char) : wordChars cs = (wordRuns cs).map (·.map Char.toLower) := by
  rw [wordChars, cutAcronym_cutCamel]
  cases cs with
  | nil => rfl
  | cons c rest => exact congrArg (List.map (List.map Char.toLower)) (sameRuns c rest).filter_eq

/-! ## Nothing is lost -/

/-- The pieces between separators hold the letters and digits of the text. -/
theorem flatten_splitRuns (cs : List Char) : (splitRuns cs).flatten = cs.filter Char.isAlphanum := by
  induction cs with
  | nil => rfl
  | cons c rest ih =>
    rw [splitRuns]
    split
    · next hc => rw [flatten_consLine, ih, List.filter_cons_of_pos hc]
    · next hc => rw [List.flatten_cons, List.nil_append, ih, List.filter_cons_of_neg hc]

/-- What is put in where words start is no letter or digit. -/
theorem filter_cutWords (cs : List Char) : (cutWords cs).filter Char.isAlphanum = cs.filter Char.isAlphanum := by
  fun_induction cutWords cs with
  | case1 a b rest _ ih =>
    have hspace : ¬ (' ' : Char).isAlphanum = true := by decide
    rw [List.filter_cons, List.filter_cons_of_neg hspace, ih, List.filter_cons (x := a)]
  | case2 a b rest _ ih => rw [List.filter_cons, List.filter_cons, ih]
  | case3 => rfl

/-- The words of a text after each other are its letters and digits in small form. -/
theorem flatten_wordChars (cs : List Char) :
    (wordChars cs).flatten = (cs.filter Char.isAlphanum).map Char.toLower := by
  rw [wordChars, cutAcronym_cutCamel, ← List.map_flatten, List.flatten_filter_not_isEmpty, flatten_splitRuns,
    filter_cutWords]

/-- The words of a text are the longest rows of letters and digits inside which no word starts, in small letters. None
of them is empty, they consist of small letters and digits, and all of them together are the letters and digits of the
text in small form. -/
theorem words_eq_runs (text : String) :
    words text = (wordRuns text.toList).map (fun run => String.ofList (run.map Char.toLower)) ∧
      (∀ w ∈ words text, w ≠ "" ∧ ∀ c ∈ w.toList, c.isLower = true ∨ c.isDigit = true) ∧
      String.join (words text) = String.ofList ((text.toList.filter Char.isAlphanum).map Char.toLower) := by
  refine ⟨?_, ?_, ?_⟩
  · rw [words, wordChars_eq_wordRuns, List.map_map]
    rfl
  · rw [words, List.forall_mem_map]
    intro w hw
    have hword := isWord_of_mem_wordChars hw
    rw [String.toList_ofList]
    refine ⟨fun hempty => hword.ne_nil ?_, fun c hc => ?_⟩
    · rw [← String.toList_inj, String.toList_ofList] at hempty
      exact hempty
    · have hletter := hword.alphanum c hc
      rw [Char.isAlphanum, Char.isAlpha, hword.small c hc, Bool.false_or, Bool.or_eq_true] at hletter
      exact hletter
  · rw [← String.toList_inj, String.toList_join, String.toList_ofList, words, List.flatMap_map, ← flatten_wordChars,
      ← List.flatMap_id]
    exact List.flatMap_congr fun w _ => String.toList_ofList

/-- Both kinds of boundaries and characters beyond ASCII. -/
example : wordRuns "HTTPServer2Go_é".toList = ["HTTP".toList, "Server2".toList, "Go".toList] := by decide

end TensorBridge
