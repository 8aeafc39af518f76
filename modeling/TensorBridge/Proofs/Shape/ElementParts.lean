import TensorBridge.Proofs.Computation
import TensorBridge.Proofs.Shape.DimTokens
import TensorBridge.Shape.Element

/-!
# The parts of a matrix element's text

The text of a matrix element is taken apart at its first colon, and what stands in front of it into the code of a depth
and what may be a numeral for the number of channels. The element is read if every part is, and where a part is not, the
token is refused as an element. Only a numeral of more digits than are read as a number breaks the reading off; which
tokens hold one is said here by their spelling.
-/

namespace TensorBridge

/-- The text of a matrix element: its depth, by the number of bits and the kind of number, and its channels. -/
def Element.matrixText (bits : List Char) (sign : Char) (digits : List Char) : List Char :=
  ['C', 'V', '_'] ++ bits ++ sign :: 'C' :: digits

/-- A token for a matrix element with a long numeral for its channels, behind any number of bits and in front of
whatever a colon parts off. -/
def Value.IsLongElement (token : Value) : Prop :=
  ∃ s, token = .string s ∧ ∃ bits, isPositiveNumeral bits = true ∧ ∃ sign ∈ ['U', 'S', 'F'],
    ∃ digits, IsLongNumeral digits ∧ ∃ finish ∈ [[], ['\n']], ∃ suffix, suffix.head?.all (· == ':') = true ∧
      s.toList = Element.matrixText bits sign digits ++ finish ++ suffix

namespace Element

/-! ## Parts -/

/-- The code of a depth, known or not: the number of bits and the kind of number. -/
def IsDepthText (code : List Char) : Prop :=
  ∃ bits, isPositiveNumeral bits = true ∧ ∃ sign ∈ ['U', 'S', 'F'], code = bits ++ [sign]

/-- The characters for the channels, if there is a numeral for them. -/
def channelChars : Option (List Char) → List Char
  | none => []
  | some digits => 'C' :: digits

/-- What is parted into the code of a depth and what may be a numeral is put together from them. -/
theorem spelled_of_splitMatrixText {cs code : List Char} {numeral : Option (List Char)}
    (h : splitMatrixText cs = some (code, numeral)) :
    IsDepthText code ∧ (∀ digits ∈ numeral, isPositiveNumeral digits = true) ∧
      cs = ['C', 'V', '_'] ++ (code ++ channelChars numeral) := by
  unfold splitMatrixText at h
  obtain ⟨rest, hrest, h⟩ := Option.bind_eq_some_iff.mp h
  rw [afterStart?_eq_some_iff.mp hrest]
  dsimp only at h
  split at h
  · next sign behind hbehind =>
    obtain ⟨hparts, _⟩ := parted_iff.mp ⟨rfl, hbehind⟩
    split at h
    · cases h
    · next hnumeral =>
      simp only [Bool.or_eq_true, Bool.not_eq_true', not_or, Bool.not_eq_false, beq_iff_eq] at hnumeral
      have hdepth : IsDepthText (rest.takeWhile isDecimalDigit ++ [sign]) :=
        ⟨_, hnumeral.1, sign, by simpa [or_assoc] using hnumeral.2, rfl⟩
      rw [List.append_cons] at hparts
      -- behind the kind of number: nothing, a numeral for the channels, or something that is refused
      split at h
      · cases h
        exact ⟨hdepth, fun digits hdigits => (nomatch hdigits), congrArg _ hparts⟩
      · split at h
        · next digits hdigits =>
          cases h
          refine ⟨hdepth, fun _ heq => ?_, congrArg _ hparts⟩
          cases heq
          exact hdigits
        · cases h
      · cases h
  · cases h

/-- The text of a matrix element is parted into the code of a depth and what may be a numeral. -/
theorem splitMatrixText_eq_some_iff {cs code : List Char} {numeral : Option (List Char)} :
    splitMatrixText cs = some (code, numeral) ↔
      IsDepthText code ∧ (∀ digits ∈ numeral, isPositiveNumeral digits = true) ∧
        cs = ['C', 'V', '_'] ++ (code ++ channelChars numeral) := by
  refine ⟨spelled_of_splitMatrixText, ?_⟩
  rintro ⟨⟨bits, hbits, sign, hsign, rfl⟩, hnumeral, rfl⟩
  have hrest : afterStart? ['C', 'V', '_'] (['C', 'V', '_'] ++ (bits ++ [sign] ++ channelChars numeral)) =
      some (bits ++ sign :: channelChars numeral) :=
    afterStart?_eq_some_iff.mpr (congrArg _ (List.append_cons bits sign _).symm)
  have hkinds : ['U', 'S', 'F'].all (!isDecimalDigit ·) = true := by decide
  have hdigit : ∀ c ∈ (sign :: channelChars numeral).head?, isDecimalDigit c = false := by
    intro c hc
    cases hc
    simpa using List.all_eq_true.mp hkinds sign hsign
  obtain ⟨htake, hdrop⟩ := parted_iff.mpr ⟨rfl, isDecimalDigit_of_mem_numeral hbits, hdigit⟩
  have hkind : (sign == 'U' || sign == 'S' || sign == 'F') = true := by simpa [or_assoc] using hsign
  unfold splitMatrixText
  simp only [hrest, Option.bind_eq_bind, Option.bind_some, htake, hdrop, hbits, hkind, Bool.not_true, Bool.or_false,
    Bool.false_eq_true, ↓reduceIte]
  cases numeral with
  | none => rfl
  | some digits => exact if_pos (hnumeral digits rfl)

/-- The text of a matrix element consists of digits and some capitals. -/
theorem character_of_splitMatrixText {cs code : List Char} {numeral : Option (List Char)}
    (h : splitMatrixText cs = some (code, numeral)) :
    ∀ c ∈ cs, isDecimalDigit c = true ∨ c ∈ ['C', 'V', '_', 'U', 'S', 'F'] := by
  obtain ⟨⟨bits, hbits, sign, hsign, rfl⟩, hnumeral, rfl⟩ := splitMatrixText_eq_some_iff.mp h
  have hsign : sign ∈ ['C', 'V', '_', 'U', 'S', 'F'] := List.mem_append_right ['C', 'V', '_'] hsign
  rw [List.forall_mem_append, List.forall_mem_append, List.forall_mem_append, List.forall_mem_singleton]
  refine ⟨fun c hc => .inr (List.mem_append_left ['U', 'S', 'F'] hc), ⟨fun c hc => .inl ?_, .inr hsign⟩, ?_⟩
  · exact isDecimalDigit_of_mem_numeral hbits c hc
  cases numeral with
  | none => exact List.forall_mem_nil _
  | some digits =>
    exact List.forall_mem_cons.mpr
      ⟨by decide, fun c hc => .inl (isDecimalDigit_of_mem_numeral (hnumeral digits rfl) c hc)⟩

/-- The text of a matrix element is found in front of a line break or none, and of what a colon parts off. -/
theorem split_matrix_iff {cs body code suffix : List Char} {numeral : Option (List Char)} {endsLine : Bool}
    (h : splitMatrixText body = some (code, numeral)) :
    splitFinalBreak (cs.takeWhile (· ≠ ':')) = (body, endsLine) ∧ cs.dropWhile (· ≠ ':') = suffix ↔
      suffix.head?.all (· == ':') = true ∧ cs = body ++ (if endsLine then ['\n'] else []) ++ suffix := by
  have hcharacters := character_of_splitMatrixText h
  have hlast : body.getLast? ≠ some '\n' := fun hlast =>
    absurd (hcharacters '\n' (List.mem_of_getLast? hlast)) (by decide)
  have hcolon : ':' ∉ body ++ if endsLine then ['\n'] else [] := by
    rw [List.mem_append, not_or]
    refine ⟨fun hmem => absurd (hcharacters ':' hmem) (by decide), ?_⟩
    cases endsLine <;> decide
  have hsuffix : suffix.head?.all (· == ':') = true ↔ ∀ c ∈ suffix.head?, c = ':' := by
    cases suffix <;> simp
  rw [splitFinalBreak_eq_iff hlast, parted_at_iff, hsuffix, and_iff_right hcolon, and_comm]

/-! ## What is read -/

/-- There is at least one channel. -/
theorem channels_pos (e : Element) : 0 < e.channels := by
  cases e with
  | primitive type endsLine => exact Nat.one_pos
  | matrix depth written container endsLine =>
    cases written with
    | none => exact Nat.one_pos
    | some k => exact Nat.succ_pos k.val

/-- What the reader asks of the channels in a fixed container is that there is one. -/
theorem fixed_channels_iff {e : Element} :
    ¬ (e.container.isFixed && decide (1 < e.channels)) = true ↔ (e.container.isFixed = true → e.channels = 1) := by
  rw [Bool.and_eq_true, decide_eq_true_eq, not_and, Nat.not_lt]
  exact forall_congr' fun _ => ⟨fun h => Nat.le_antisymm h e.channels_pos, fun h => h.le⟩

/-- A matrix element is read if the parts of its text are. -/
theorem readMatrix_eq_ok_iff {token : Value} {cs : List Char} {e : Element} :
    readMatrix token cs = .ok e ↔ ∃ depth written container endsLine body code numeral,
      e = .matrix depth written container endsLine ∧ splitFinalBreak (cs.takeWhile (· ≠ ':')) = (body, endsLine) ∧
        splitMatrixText body = some (code, numeral) ∧ readChannels token numeral = .ok written ∧
          Depth.ofCode? (String.ofList code) = some depth ∧
            readContainer token ((cs.dropWhile (· ≠ ':')).drop 1) = .ok container ∧
              (e.container.isFixed = true → e.channels = 1) := by
  constructor
  · intro h
    unfold readMatrix at h
    dsimp only at h
    split at h
    · cases h
    · next code numeral hsplit =>
      obtain ⟨written, hwritten, h⟩ := except_bind_eq_ok.mp h
      split at h
      · cases h
      · next depth hdepth =>
        obtain ⟨container, hcontainer, h⟩ := except_bind_eq_ok.mp h
        split at h
        · cases h
        · next hchannels =>
          cases h
          exact ⟨depth, written, container, _, _, code, numeral, rfl, rfl, hsplit, hwritten, hdepth, hcontainer,
            fixed_channels_iff.mp hchannels⟩
  · rintro ⟨depth, written, container, endsLine, body, code, numeral, rfl, hfront, hsplit, hwritten, hdepth,
      hcontainer, hchannels⟩
    unfold readMatrix
    rw [hfront]
    dsimp only
    rw [hsplit]
    dsimp only
    rw [hwritten, hdepth]
    change (readContainer token _ >>= _) = _
    rw [hcontainer]
    exact if_neg (fixed_channels_iff.mpr hchannels)

/-! ## What goes wrong -/

/-- A refusal of a token as an element, for its format or for one of its parts. -/
structure IsRefusal (r : Refusal) (token : Value) : Prop where
  kind : r.kind = .element ∨ r.kind.wider? = some .element
  token_eq : r.token = token

/-- A numeral for the channels is too long, or the number is too large. -/
theorem readChannels_eq_error {token : Value} {numeral : Option (List Char)} {e : Error}
    (h : readChannels token numeral = .error e) :
    (e = .fault .numeralTooLong ∧ ∃ digits, numeral = some digits ∧ maxNumeralDigits < digits.length) ∨
      ∃ count, e = .refusal (.tooManyChannels count token) := by
  unfold readChannels at h
  split at h
  · cases h
  · next digits =>
    split at h
    · next hlong =>
      cases h
      exact .inl ⟨rfl, digits, rfl, hlong⟩
    · dsimp only at h
      split at h
      · cases h
      · cases h
        exact .inr ⟨_, rfl⟩

/-- A container is read, or the token is refused for its format. -/
theorem readContainer_eq_error {token : Value} {suffix : List Char} {e : Error}
    (h : readContainer token suffix = .error e) : e = .refusal (.elementFormat token) := by
  unfold readContainer at h
  split at h
  · cases h
  · split at h
    · cases h
    · cases h
      rfl

/-- A primitive type is read, or the token is refused for its format. -/
theorem readPrimitive_eq_error {token : Value} {cs : List Char} {e : Error} (h : readPrimitive token cs = .error e) :
    e = .refusal (.elementFormat token) := by
  unfold readPrimitive at h
  dsimp only at h
  split at h
  · cases h
  · cases h
    rfl

/-- A text that is not read as a matrix element is refused as an element, or the numeral of its channels is too long. -/
theorem readMatrix_eq_error {token : Value} {cs : List Char} {e : Error} (h : readMatrix token cs = .error e) :
    (∃ r, e = .refusal r ∧ IsRefusal r token) ∨ e = .fault .numeralTooLong ∧ ∃ body endsLine code digits,
      splitFinalBreak (cs.takeWhile (· ≠ ':')) = (body, endsLine) ∧
        splitMatrixText body = some (code, some digits) ∧ maxNumeralDigits < digits.length := by
  unfold readMatrix at h
  dsimp only at h
  split at h
  · cases h
    exact .inl ⟨_, rfl, .inl rfl, rfl⟩
  · next code numeral hsplit =>
    rcases except_bind_eq_error.mp h with h | ⟨written, _, h⟩
    · rcases readChannels_eq_error h with ⟨rfl, digits, rfl, hlong⟩ | ⟨count, rfl⟩
      · exact .inr ⟨rfl, _, _, code, digits, rfl, hsplit, hlong⟩
      · exact .inl ⟨_, rfl, .inr rfl, rfl⟩
    -- everything behind the channels is read or refused
    · split at h
      · cases h
        exact .inl ⟨_, rfl, .inr rfl, rfl⟩
      · rcases except_bind_eq_error.mp h with h | ⟨container, _, h⟩
        · rw [readContainer_eq_error h]
          exact .inl ⟨_, rfl, .inl rfl, rfl⟩
        · split at h
          · cases h
            exact .inl ⟨_, rfl, .inr rfl, rfl⟩
          · cases h

/-- A token that is refused is refused as an element. -/
theorem isRefusal_of_ofToken {token : Value} {r : Refusal} (h : ofToken token = .error (.refusal r)) :
    IsRefusal r token := by
  unfold ofToken at h
  split at h
  · dsimp only at h
    split at h
    · rcases readMatrix_eq_error h with ⟨r, hr, hrefusal⟩ | ⟨hfault, _⟩
      · cases hr
        exact hrefusal
      · cases hfault
    · cases readPrimitive_eq_error h
      exact ⟨.inl rfl, rfl⟩
  · cases h
    exact ⟨.inl rfl, rfl⟩

/-! ## Numerals that are too long -/

/-- The text of a matrix element ends the reading in a fault exactly if the numeral of its channels is too long. -/
theorem readMatrix_eq_fault_iff {token : Value} {cs : List Char} {f : Fault} :
    readMatrix token cs = .error (.fault f) ↔
      f = .numeralTooLong ∧ ∃ body endsLine code digits,
        splitFinalBreak (cs.takeWhile (· ≠ ':')) = (body, endsLine) ∧
          splitMatrixText body = some (code, some digits) ∧ maxNumeralDigits < digits.length := by
  constructor
  · intro h
    rcases readMatrix_eq_error h with ⟨_, hr, _⟩ | ⟨hfault, hlong⟩
    · cases hr
    · cases hfault
      exact ⟨rfl, hlong⟩
  · rintro ⟨rfl, body, endsLine, code, digits, hfront, hsplit, hlong⟩
    unfold readMatrix
    rw [hfront]
    dsimp only
    rw [hsplit]
    dsimp only
    rw [readChannels, if_pos hlong]
    rfl

/-- The numeral of the channels is too long exactly in a token that is spelled so. -/
theorem isLongElement_iff {s : String} :
    (Value.string s).IsLongElement ↔
      ∃ body endsLine code digits, splitFinalBreak (s.toList.takeWhile (· ≠ ':')) = (body, endsLine) ∧
        splitMatrixText body = some (code, some digits) ∧ maxNumeralDigits < digits.length := by
  have htext (bits : List Char) (sign : Char) (digits : List Char) :
      matrixText bits sign digits = ['C', 'V', '_'] ++ (bits ++ [sign] ++ channelChars (some digits)) := by
    rw [matrixText, channelChars, List.append_assoc, List.append_assoc, List.singleton_append]
  constructor
  · rintro ⟨_, heq, bits, hbits, sign, hsign, digits, hdigits, finish, hfinish, suffix, hsuffix, hs⟩
    cases heq
    have hsplit : splitMatrixText (matrixText bits sign digits) = some (bits ++ [sign], some digits) := by
      refine splitMatrixText_eq_some_iff.mpr ⟨⟨bits, hbits, sign, hsign, rfl⟩, fun _ hmem => ?_, htext bits sign digits⟩
      cases hmem
      exact hdigits.numeral
    obtain ⟨endsLine, rfl⟩ := mem_lineBreaks_iff.mp hfinish
    exact ⟨_, endsLine, _, digits, ((split_matrix_iff hsplit).mpr ⟨hsuffix, hs⟩).1, hsplit, hdigits.long⟩
  · rintro ⟨body, endsLine, code, digits, hfront, hsplit, hlong⟩
    obtain ⟨hsuffix, hs⟩ := (split_matrix_iff hsplit).mp ⟨hfront, rfl⟩
    obtain ⟨⟨bits, hbits, sign, hsign, rfl⟩, hnumeral, rfl⟩ := splitMatrixText_eq_some_iff.mp hsplit
    refine ⟨s, rfl, bits, hbits, sign, hsign, digits, ⟨hnumeral digits rfl, hlong⟩,
      _, mem_lineBreaks_iff.mpr ⟨endsLine, rfl⟩, s.toList.dropWhile (· ≠ ':'), hsuffix, ?_⟩
    rw [htext]
    exact hs

/-- Reading an element ends in a fault exactly for a token with a long numeral. -/
theorem ofToken_eq_fault_iff {token : Value} {f : Fault} :
    ofToken token = .error (.fault f) ↔ f = .numeralTooLong ∧ token.IsLongElement := by
  cases token with
  | string s =>
    unfold ofToken
    dsimp only
    split
    · rw [readMatrix_eq_fault_iff, isLongElement_iff]
    · next hstart =>
      refine iff_of_false (fun h => nomatch readPrimitive_eq_error h) ?_
      rintro ⟨_, _, heq, bits, _, sign, _, digits, _, finish, _, suffix, _, hs⟩
      cases heq
      have hfound : afterStart? ['C', 'V'] s.toList =
          some ('_' :: (bits ++ sign :: 'C' :: digits ++ finish ++ suffix)) := by
        rw [afterStart?_eq_some_iff, hs, matrixText]
        simp
      rw [hfound] at hstart
      exact hstart rfl
  | _ =>
    refine iff_of_false (fun h => nomatch h) ?_
    rintro ⟨_, _, heq, _⟩
    cases heq

end Element

end TensorBridge
