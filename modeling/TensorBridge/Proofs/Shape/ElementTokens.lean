import TensorBridge.Proofs.Shape.ElementParts

/-!
# Tokens for elements

A token for an element is the name of a primitive type, or the text of a matrix element: its depth, the number of its
channels if that is given, and behind a colon the name of its container, if that is not left out. The reader takes such
tokens apart into the canonical text of the element and what stands behind it. Beyond them it takes tokens with a line
break at the end of the canonical text, which stays in it, and matrix elements with nothing behind the colon. Everything
else is refused as an element.
-/

namespace TensorBridge

/-! ## Spellings -/

/-- What is known of an element once it has been read. -/
structure ElementFacts where
  isMatrix : Bool
  canonical : String
  channels : Nat
  depth : Option Depth
  typeName : Option String
  container : Container
deriving DecidableEq, Repr

/-- The facts of an element. -/
def Element.facts (e : Element) : ElementFacts :=
  { isMatrix := e.isMatrix
    canonical := e.canonical
    channels := e.channels
    depth := e.depth?
    typeName := e.typeName?
    container := e.container }

/-- The texts for the number of channels. -/
def channelTexts : List (String × Nat) := [("", 1), ("C1", 1), ("C2", 2), ("C3", 3), ("C4", 4)]

/-- The texts for the container. -/
def containerTexts : List (String × Container) := [("", .mat), (":Mat", .mat), (":Matx", .matx), (":Vec", .vec)]

namespace Element

/-- The tokens of elements with what they say about them. Two lists give what may stand at the end of the canonical
text, and what may stand behind it for the container. -/
inductive IsSpelled (finishes : List String) (suffixes : List (String × Container)) : String → ElementFacts → Prop
  | primitive (type : Primitive) {finish : String} (finishes_mem : finish ∈ finishes) :
    IsSpelled finishes suffixes (type.name ++ finish)
      { isMatrix := false
        canonical := type.name ++ finish
        channels := 1
        depth := none
        typeName := some (type.name ++ finish)
        container := .mat }
  | matrix (depth : Depth) {written finish suffix : String} {channels : Nat} {container : Container}
      (channels_mem : (written, channels) ∈ channelTexts) (finishes_mem : finish ∈ finishes)
      (suffixes_mem : (suffix, container) ∈ suffixes) (fixed_channels : container.isFixed = true → channels = 1) :
    IsSpelled finishes suffixes ("CV_" ++ depth.code ++ written ++ finish ++ suffix)
      { isMatrix := true
        canonical := "CV_" ++ depth.code ++ written ++ finish
        channels := channels
        depth := some depth
        typeName := none
        container := container }

/-! ## Elements that are read -/

/-- The text for the channels of an element. -/
def channelText : Option (Fin 4) → String
  | none => ""
  | some k => "C" ++ toString (k.val + 1)

/-- The canonical text of a matrix element. -/
theorem canonical_matrix (depth : Depth) (written : Option (Fin 4)) (container : Container) (endsLine : Bool) :
    (matrix depth written container endsLine).canonical =
      "CV_" ++ depth.code ++ channelText written ++ lineEnd endsLine := by
  cases written <;> rfl

/-- The characters of a line break or none. -/
theorem toList_lineEnd (endsLine : Bool) : (lineEnd endsLine).toList = if endsLine then ['\n'] else [] := by
  cases endsLine <;> rfl

/-- The characters of a canonical text, as the reader parts them. -/
theorem toList_canonical_matrix (depth : Depth) (written : Option (Fin 4)) (container : Container) (endsLine : Bool) :
    (matrix depth written container endsLine).canonical.toList =
      ['C', 'V', '_'] ++ (depth.code.toList ++ channelChars (written.map fun k => Nat.toDigits 10 (k.val + 1))) ++
        if endsLine then ['\n'] else [] := by
  have hchannels : (channelText written).toList = channelChars (written.map fun k => Nat.toDigits 10 (k.val + 1)) := by
    cases written with
    | none => rfl
    | some k =>
      rw [channelText, String.toList_append]
      exact congrArg ('C' :: ·) Nat.toList_repr
  have hstart : ("CV_" : String).toList = ['C', 'V', '_'] := rfl
  rw [canonical_matrix, String.toList_append, String.toList_append, String.toList_append, toList_lineEnd, hchannels,
    hstart, List.append_assoc ['C', 'V', '_']]

/-- A code of a known depth is one of a depth. -/
theorem isDepthText_code (depth : Depth) : IsDepthText depth.code.toList := by
  cases depth
  case u8 | s8 => exact ⟨['8'], rfl, _, by decide, rfl⟩
  case u16 | s16 => exact ⟨['1', '6'], rfl, _, by decide, rfl⟩
  case s32 | f32 => exact ⟨['3', '2'], rfl, _, by decide, rfl⟩
  case f64 => exact ⟨['6', '4'], rfl, _, by decide, rfl⟩

/-- A depth is known by its code. -/
theorem ofCode?_eq_some_iff {code : List Char} {depth : Depth} :
    Depth.ofCode? (String.ofList code) = some depth ↔ code = depth.code.toList := by
  constructor
  · intro h
    unfold Depth.ofCode? at h
    have hcode := List.find?_some h
    rw [eq_of_beq hcode, String.toList_ofList]
  · rintro rfl
    rw [String.ofList_toList, Depth.ofCode?_code]

/-- The numerals that give a number of channels are the printed numbers from one to four. -/
theorem readChannels_eq_ok_iff {token : Value} {numeral : Option (List Char)} {written : Option (Fin 4)}
    (hnumeral : ∀ digits ∈ numeral, isPositiveNumeral digits = true) :
    readChannels token numeral = .ok written ↔ numeral = written.map fun k => Nat.toDigits 10 (k.val + 1) := by
  constructor
  · intro h
    cases numeral with
    | none =>
      cases h
      rfl
    | some digits =>
      rw [readChannels] at h
      split at h
      · cases h
      · dsimp only at h
        split at h
        · next hchannels =>
          cases h
          have hdigits := hnumeral digits rfl
          have hpos := numeralValue_pos hdigits
          have hfew : numeralValue digits - 1 < 4 := hchannels
          -- a number below ten has one digit, so no other numeral writes it
          rw [Option.map_some, Nat.sub_add_cancel hpos]
          exact congrArg some (eq_toDigits_of_lt_ten hdigits (by omega))
        · cases h
  · rintro rfl
    cases written with
    | none => rfl
    | some k =>
      have hshort : ∀ k : Fin 4, (Nat.toDigits 10 (k.val + 1)).length ≤ 1 := by decide
      rw [Option.map_some, readChannels, if_neg (Nat.not_lt.mpr ((hshort k).trans (by decide)))]
      dsimp only
      simp only [numeralValue_toDigits, Nat.add_sub_cancel]
      exact dif_pos k.isLt

/-- A container is written behind a colon. -/
theorem mem_containerTexts (container : Container) : (":" ++ container.name, container) ∈ containerTexts := by
  cases container <;> decide

/-- What a colon parts off gives a container if it is one of the texts for it, or nothing stands behind the colon. -/
theorem readContainer_eq_ok_iff (token : Value) {suffix : String} {container : Container} :
    suffix.toList.head?.all (· == ':') = true ∧ readContainer token (suffix.toList.drop 1) = .ok container ↔
      (suffix, container) ∈ (":", .mat) :: containerTexts := by
  constructor
  · obtain ⟨cs, rfl⟩ : ∃ cs, suffix = String.ofList cs := ⟨suffix.toList, String.ofList_toList.symm⟩
    rw [String.toList_ofList]
    rintro ⟨hcolon, h⟩
    rcases cs with _ | ⟨colon, _ | ⟨first, rest⟩⟩
    · cases h
      decide
    · obtain rfl : colon = ':' := by simpa using hcolon
      cases h
      decide
    · obtain rfl : colon = ':' := by simpa using hcolon
      simp only [readContainer, List.drop_succ_cons, List.drop_zero, List.isEmpty_cons, Bool.false_eq_true,
        ↓reduceIte] at h
      split at h
      · next hname =>
        cases h
        unfold Container.ofName? at hname
        have hfound := List.find?_some hname
        have hcs : String.ofList (':' :: first :: rest) = ":" ++ container.name := by
          rw [eq_of_beq hfound, ← String.toList_inj, String.toList_append]
          simp only [String.toList_ofList]
          rfl
        rw [hcs]
        exact List.mem_cons_of_mem _ (mem_containerTexts container)
      · cases h
  · intro h
    simp only [containerTexts, List.mem_cons, List.not_mem_nil, or_false, Prod.mk.injEq] at h
    rcases h with ⟨rfl, rfl⟩ | ⟨rfl, rfl⟩ | ⟨rfl, rfl⟩ | ⟨rfl, rfl⟩ | ⟨rfl, rfl⟩ <;> exact ⟨rfl, rfl⟩

/-- A matrix element is read from its canonical text and what may stand behind it. -/
theorem readMatrix_text_iff {token : Value} {s : String} {e : Element} :
    readMatrix token s.toList = .ok e ↔ e.isMatrix = true ∧ (e.container.isFixed = true → e.channels = 1) ∧
      ∃ suffix, (suffix, e.container) ∈ (":", .mat) :: containerTexts ∧ s = e.canonical ++ suffix := by
  rw [readMatrix_eq_ok_iff]
  constructor
  · rintro ⟨depth, written, container, endsLine, body, code, numeral, rfl, hfront, hsplit, hwritten, hdepth,
      hcontainer, hchannels⟩
    obtain ⟨hcolon, hs⟩ := (split_matrix_iff hsplit).mp ⟨hfront, rfl⟩
    obtain ⟨_, hnumeral, rfl⟩ := splitMatrixText_eq_some_iff.mp hsplit
    -- with the code of a depth and a printed number for the channels, what is parted is the canonical text
    rw [ofCode?_eq_some_iff.mp hdepth, (readChannels_eq_ok_iff hnumeral).mp hwritten,
      ← toList_canonical_matrix depth written container endsLine] at hs
    refine ⟨rfl, hchannels, String.ofList (s.toList.dropWhile (· ≠ ':')), (readContainer_eq_ok_iff token).mp ?_, ?_⟩
    · rw [String.toList_ofList]
      exact ⟨hcolon, hcontainer⟩
    · rw [← String.toList_inj, String.toList_append, String.toList_ofList]
      exact hs
  · rintro ⟨hmatrix, hchannels, suffix, hsuffix, rfl⟩
    cases e with
    | primitive type endsLine => cases hmatrix
    | matrix depth written container endsLine =>
      have hnumeral : ∀ digits ∈ written.map fun k => Nat.toDigits 10 (k.val + 1), isPositiveNumeral digits = true := by
        intro digits hdigits
        obtain ⟨k, _, rfl⟩ := Option.map_eq_some_iff.mp hdigits
        exact isPositiveNumeral_toDigits (Nat.succ_pos _)
      have hsplit := splitMatrixText_eq_some_iff.mpr ⟨isDepthText_code depth, hnumeral, rfl⟩
      have htext := toList_canonical_matrix depth written container endsLine
      obtain ⟨hcolon, hcontainer⟩ := (readContainer_eq_ok_iff token).mpr hsuffix
      obtain ⟨hfront, hbehind⟩ := (split_matrix_iff hsplit).mpr ⟨hcolon, by rw [← htext, ← String.toList_append]⟩
      refine ⟨depth, written, container, endsLine, _, _, _, rfl, hfront, hsplit,
        (readChannels_eq_ok_iff hnumeral).mpr rfl, ofCode?_eq_some_iff.mpr rfl, ?_, hchannels⟩
      rw [hbehind]
      exact hcontainer

/-- A primitive type is read from its canonical text. -/
theorem readPrimitive_eq_ok_iff {token : Value} {s : String} {e : Element} :
    readPrimitive token s.toList = .ok e ↔ e.isMatrix = false ∧ s = e.canonical := by
  constructor
  · intro h
    have hs := splitFinalBreak_append s.toList
    unfold readPrimitive at h
    dsimp only at h
    split at h
    · next type hname =>
      cases h
      unfold Primitive.ofName? at hname
      have hbody := List.find?_some hname
      refine ⟨rfl, ?_⟩
      rw [← String.toList_inj, canonical, String.toList_append, toList_lineEnd, eq_of_beq hbody, String.toList_ofList]
      exact hs.symm
    · cases h
  · rintro ⟨hmatrix, rfl⟩
    cases e with
    | matrix => cases hmatrix
    | primitive type endsLine => cases type <;> cases endsLine <;> rfl

/-- Matrix elements are told from primitive types by how their texts start. -/
theorem afterStart?_canonical (e : Element) (suffix : String) :
    (afterStart? ['C', 'V'] (e.canonical ++ suffix).toList).isSome = e.isMatrix := by
  rw [String.toList_append]
  cases e with
  | primitive type endsLine =>
    rw [canonical, String.toList_append]
    cases type <;> rfl
  | matrix depth written container endsLine =>
    rw [toList_canonical_matrix]
    rfl

/-- An element is read from its canonical text and, for a matrix element, what may stand behind it. -/
theorem ofToken_eq_ok_iff {s : String} {e : Element} :
    ofToken (.string s) = .ok e ↔ (e.container.isFixed = true → e.channels = 1) ∧
      ∃ suffix, (suffix, e.container) ∈ (":", .mat) :: containerTexts ∧ (suffix = "" ∨ e.isMatrix = true) ∧
        s = e.canonical ++ suffix := by
  unfold ofToken
  dsimp only
  constructor
  · intro h
    split at h
    · obtain ⟨hmatrix, hchannels, suffix, hsuffix, hs⟩ := readMatrix_text_iff.mp h
      exact ⟨hchannels, suffix, hsuffix, .inr hmatrix, hs⟩
    · obtain ⟨hmatrix, rfl⟩ := readPrimitive_eq_ok_iff.mp h
      cases e with
      | matrix => cases hmatrix
      | primitive type endsLine =>
        have hmat : ("", Container.mat) ∈ (":", .mat) :: containerTexts := by decide
        exact ⟨fun _ => rfl, "", hmat, .inl rfl, String.append_empty.symm⟩
  · rintro ⟨hchannels, suffix, hsuffix, hbehind, rfl⟩
    rw [afterStart?_canonical]
    cases hmatrix : e.isMatrix with
    | true =>
      rw [if_pos rfl]
      exact readMatrix_text_iff.mpr ⟨hmatrix, hchannels, suffix, hsuffix, rfl⟩
    | false =>
      obtain rfl := hbehind.resolve_right (by rw [hmatrix]; exact Bool.false_ne_true)
      rw [if_neg Bool.false_ne_true, String.append_empty]
      exact readPrimitive_eq_ok_iff.mpr ⟨hmatrix, rfl⟩

/-- An element that is read has several channels only in a `Mat`. -/
theorem channels_of_ofToken {token : Value} {e : Element} (h : ofToken token = .ok e)
    (hfixed : e.container.isFixed = true) : e.channels = 1 := by
  cases token with
  | string s => exact (ofToken_eq_ok_iff.mp h).1 hfixed
  | _ => cases h

/-! ## Accepted tokens -/

/-- The texts for the number of channels are those of elements. -/
theorem mem_channelTexts_iff {text : String} {n : Nat} :
    (text, n) ∈ channelTexts ↔ ∃ written, text = channelText written ∧ n = written.elim 1 (·.val + 1) := by
  constructor
  · intro h
    simp only [channelTexts, List.mem_cons, List.not_mem_nil, or_false, Prod.mk.injEq] at h
    rcases h with ⟨rfl, rfl⟩ | ⟨rfl, rfl⟩ | ⟨rfl, rfl⟩ | ⟨rfl, rfl⟩ | ⟨rfl, rfl⟩
    · exact ⟨none, rfl, rfl⟩
    · exact ⟨some 0, rfl, rfl⟩
    · exact ⟨some 1, rfl, rfl⟩
    · exact ⟨some 2, rfl, rfl⟩
    · exact ⟨some 3, rfl, rfl⟩
  · rintro ⟨written, rfl, rfl⟩
    cases written with
    | none => decide
    | some k =>
      revert k
      decide

/-- The texts for a line break or none. -/
theorem mem_lineEnds_iff {finish : String} : finish ∈ ["", "\n"] ↔ ∃ endsLine, finish = lineEnd endsLine := by
  rw [List.mem_pair, Bool.exists_bool]
  rfl

/-- The number of channels of a matrix element. -/
theorem channels_matrix (depth : Depth) (written : Option (Fin 4)) (container : Container) (endsLine : Bool) :
    (matrix depth written container endsLine).channels = written.elim 1 (·.val + 1) := by
  cases written <;> rfl

/-- Which tokens are read, and what is known of the elements. -/
theorem ofToken_facts_iff {s : String} {facts : ElementFacts} :
    (∃ e, ofToken (.string s) = .ok e ∧ e.facts = facts) ↔
      IsSpelled ["", "\n"] ((":", .mat) :: containerTexts) s facts := by
  constructor
  · rintro ⟨e, h, rfl⟩
    obtain ⟨hchannels, suffix, hsuffix, hbehind, rfl⟩ := ofToken_eq_ok_iff.mp h
    cases e with
    | primitive type endsLine =>
      obtain rfl := hbehind.resolve_right Bool.false_ne_true
      rw [String.append_empty]
      exact .primitive type (mem_lineEnds_iff.mpr ⟨endsLine, rfl⟩)
    | matrix depth written container endsLine =>
      rw [facts, canonical_matrix]
      exact .matrix depth (mem_channelTexts_iff.mpr ⟨written, rfl, channels_matrix depth written container endsLine⟩)
        (mem_lineEnds_iff.mpr ⟨endsLine, rfl⟩) hsuffix hchannels
  · intro h
    cases h with
    | primitive type hfinish =>
      obtain ⟨endsLine, rfl⟩ := mem_lineEnds_iff.mp hfinish
      have hmat : ("", Container.mat) ∈ (":", .mat) :: containerTexts := by decide
      exact ⟨.primitive type endsLine,
        ofToken_eq_ok_iff.mpr ⟨fun _ => rfl, "", hmat, .inl rfl, String.append_empty.symm⟩, rfl⟩
    | @matrix depth _ _ suffix _ container hchannels hfinish hsuffix hfixed =>
      obtain ⟨written, rfl, rfl⟩ := mem_channelTexts_iff.mp hchannels
      obtain ⟨endsLine, rfl⟩ := mem_lineEnds_iff.mp hfinish
      have hread : ofToken (.string ("CV_" ++ depth.code ++ channelText written ++ lineEnd endsLine ++ suffix)) =
          .ok (.matrix depth written container endsLine) := by
        refine ofToken_eq_ok_iff.mpr ⟨?_, suffix, hsuffix, .inr rfl, ?_⟩
        · rw [channels_matrix]
          exact hfixed
        · rw [canonical_matrix]
      refine ⟨_, hread, ?_⟩
      rw [facts, canonical_matrix, channels_matrix]
      rfl

/-- In front of the container of a matrix element, and of a line break, there is neither a colon nor a line break. -/
theorem not_mem_matrixText {c : Char} (hc : c ∈ [':', '\n']) (depth : Depth) {written : String} {n : Nat}
    (hchannels : (written, n) ∈ channelTexts) : c ∉ ("CV_" ++ depth.code ++ written).toList := by
  have hcode : ':' ∉ depth.code.toList ∧ '\n' ∉ depth.code.toList := by cases depth <;> decide
  have hwritten : ∀ p ∈ channelTexts, ':' ∉ p.1.toList ∧ '\n' ∉ p.1.toList := by decide
  rw [String.toList_append, String.toList_append, List.mem_append, List.mem_append, not_or, not_or]
  rcases List.mem_pair.mp hc with rfl | rfl
  · exact ⟨⟨by decide, hcode.1⟩, (hwritten _ hchannels).1⟩
  · exact ⟨⟨by decide, hcode.2⟩, (hwritten _ hchannels).2⟩

/-- The tokens that are put together from the parts of an element and nothing else are, among those that are read, the
ones without a line break and without a colon at the end. -/
theorem isSpelled_iff {s : String} {facts : ElementFacts} :
    IsSpelled [""] containerTexts s facts ↔ IsSpelled ["", "\n"] ((":", .mat) :: containerTexts) s facts ∧
      '\n' ∉ s.toList ∧ s.toList.getLast? ≠ some ':' := by
  constructor
  · intro h
    cases h with
    | primitive type hfinish =>
      obtain rfl := List.mem_singleton.mp hfinish
      exact ⟨.primitive type List.mem_cons_self, by cases type <;> decide, by cases type <;> decide⟩
    | @matrix depth written _ suffix _ _ hchannels hfinish hsuffix hfixed =>
      obtain rfl := List.mem_singleton.mp hfinish
      have hbreak : ∀ p ∈ containerTexts, '\n' ∉ p.1.toList := by decide
      have hends : ∀ p ∈ containerTexts, p.1.toList = [] ∨ p.1.toList ≠ [] ∧ p.1.toList.getLast? ≠ some ':' := by decide
      refine ⟨.matrix depth hchannels List.mem_cons_self (List.mem_cons_of_mem _ hsuffix) hfixed, ?_⟩
      rw [String.append_empty, String.toList_append]
      constructor
      · rw [List.mem_append, not_or]
        exact ⟨not_mem_matrixText (by decide) depth hchannels, hbreak _ hsuffix⟩
      -- the last character is that of the container, or stands in front of it if it is left out
      · rcases hends _ hsuffix with hnone | ⟨hsome, hlast⟩
        · rw [hnone, List.append_nil]
          exact fun hlast => not_mem_matrixText (by decide) depth hchannels (List.mem_of_getLast? hlast)
        · rwa [List.getLast?_append_of_ne_nil _ hsome]
  · rintro ⟨h, hbreak, hlast⟩
    cases h with
    | primitive type hfinish =>
      rcases List.mem_pair.mp hfinish with rfl | rfl
      · exact .primitive type List.mem_cons_self
      · rw [String.toList_append] at hbreak
        exact absurd (List.mem_append_right _ List.mem_cons_self) hbreak
    | matrix depth hchannels hfinish hsuffix hfixed =>
      rw [String.toList_append] at hbreak hlast
      rcases List.mem_pair.mp hfinish with rfl | rfl
      · rcases List.mem_cons.mp hsuffix with hcolon | hsuffix
        · cases hcolon
          exact absurd List.getLast?_concat hlast
        · exact .matrix depth hchannels List.mem_cons_self hsuffix hfixed
      · rw [String.toList_append, List.append_assoc] at hbreak
        exact absurd (List.mem_append_right _ (List.mem_append_left _ List.mem_cons_self)) hbreak

/-- Which tokens are read, and what is known of the elements then. Among them, those without a line break and without a
colon at the end are the ones that are put together from the parts of an element and nothing else. Every other token is
refused as an element, unless the numeral of its channels is too long. -/
theorem ofToken_accepts (s : String) :
    (∀ facts, (∃ e, ofToken (.string s) = .ok e ∧ e.facts = facts) ↔
      IsSpelled ["", "\n"] ((":", .mat) :: containerTexts) s facts) ∧
    (∀ facts, IsSpelled [""] containerTexts s facts ↔
      (∃ e, ofToken (.string s) = .ok e ∧ e.facts = facts) ∧ '\n' ∉ s.toList ∧ s.toList.getLast? ≠ some ':') ∧
    ((∃ e, ofToken (.string s) = .ok e) ∨ (Value.string s).IsLongElement ∨
      ∃ r, ofToken (.string s) = refuse r ∧
        (r.kind = .element ∨ r.kind.wider? = some .element) ∧ r.token = .string s) := by
  refine ⟨fun facts => ofToken_facts_iff, fun facts => ?_, ?_⟩
  · rw [ofToken_facts_iff, isSpelled_iff]
  · match h : ofToken (.string s) with
    | .ok e => exact .inl ⟨e, rfl⟩
    | .error (.fault f) => exact .inr (.inl (ofToken_eq_fault_iff.mp h).2)
    | .error (.refusal r) =>
      have hrefusal := isRefusal_of_ofToken h
      exact .inr (.inr ⟨r, rfl, hrefusal.kind, hrefusal.token_eq⟩)

/-- The name of a type with a line break behind it is read, and so is a matrix element with nothing behind the colon,
though neither is put together from the parts of an element alone. -/
theorem brokenTokens_accepted :
    (ofToken (.string "int\n") = .ok (.primitive .int true) ∧
      ¬ ∃ facts, IsSpelled [""] containerTexts "int\n" facts) ∧
    ofToken (.string "CV_8U:") = .ok (.matrix .u8 none .mat false) ∧
      ¬ ∃ facts, IsSpelled [""] containerTexts "CV_8U:" facts := by
  refine ⟨⟨rfl, ?_⟩, rfl, ?_⟩
  · rintro ⟨facts, h⟩
    exact (isSpelled_iff.mp h).2.1 (by decide)
  · rintro ⟨facts, h⟩
    exact (isSpelled_iff.mp h).2.2 (by decide)

end Element

end TensorBridge
