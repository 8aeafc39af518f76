import TensorBridge.Proofs.Text.Numerals
import TensorBridge.Proofs.Text.Parted
import TensorBridge.Shape.Dim

/-!
# Tokens for dimensions

A token for a dimension is a text, or a whole number that is taken as its text. It says how long the axis is: `none`, or
a numeral without leading zero whose other digits may be of any script. In front of that may stand `vector:`, and behind
it one line break. A token that is not put together so is refused, a zero for another reason than the rest. A numeral of
more digits than are read as a number breaks the reading off. Dimensions are printed as tokens that are read back.
-/

namespace TensorBridge

/-! ## Spellings -/

/-- A numeral without leading zero that has more digits than are read as a number. -/
structure IsLongNumeral (digits : List Char) : Prop where
  numeral : isPositiveNumeral digits = true
  long : maxNumeralDigits < digits.length

/-- The characters of a token that can stand for a dimension. -/
def Dim.characters? : Value → Option (List Char)
  | .string s => some s.toList
  | .int n => some (toString n).toList
  | _ => none

/-- A token for a dimension with a long numeral: alone or behind `vector:`, with a line break behind it or without. -/
def Value.IsLongDim (token : Value) : Prop :=
  ∃ start ∈ [[], ['v', 'e', 'c', 't', 'o', 'r', ':']], ∃ digits, IsLongNumeral digits ∧
    ∃ finish ∈ [[], ['\n']], Dim.characters? token = some (start ++ digits ++ finish)

/-- The texts of extents: `none` for an unknown one, and the numerals for the numbers of their digits in base ten. -/
inductive IsExtentText : List Char → Extent → Prop
  | unknown : IsExtentText ['n', 'o', 'n', 'e'] none
  | known {digits : List Char} (numeral : IsNumeral digits) :
    IsExtentText digits (some (Nat.ofDigits 10 (digits.reverse.map fun c => (digitValue? c).getD 0)))

namespace Dim

/-- What stands in front of the extent of an axis: nothing, unless the axis is a layer of vectors. -/
def start (isVector : Bool) : List Char := if isVector then ['v', 'e', 'c', 't', 'o', 'r', ':'] else []

/-- The characters of a token have a text for the extent behind the start for the kind of the axis, and behind that text
nothing or a line break. -/
def IsAround (isVector : Bool) (extent cs : List Char) : Prop :=
  ∃ finish ∈ [[], ['\n']], cs = start isVector ++ extent ++ finish

/-- An axis of a kind and an extent. -/
def ofKind (isVector : Bool) : Extent → Dim := if isVector then .vector else .block

/-- The kind of an axis. -/
theorem isVector_ofKind (isVector : Bool) (e : Extent) : (ofKind isVector e).isVector = isVector := by
  cases isVector <;> rfl

/-- The extent of an axis. -/
theorem extent_ofKind (isVector : Bool) (e : Extent) : (ofKind isVector e).extent = e := by
  cases isVector <;> rfl

/-- An axis has a kind and an extent, and nothing else. -/
theorem eq_ofKind (d : Dim) : d = ofKind d.isVector d.extent := by
  cases d <;> rfl

/-- What may stand in front of an extent. -/
theorem mem_starts_iff {front : List Char} :
    front ∈ [[], ['v', 'e', 'c', 't', 'o', 'r', ':']] ↔ ∃ isVector, front = start isVector := by
  rw [List.mem_pair, Bool.exists_bool]
  rfl

/-- A long numeral makes the token around it one with a long numeral. -/
theorem isLongDim_of_isAround {token : Value} {cs digits : List Char} {isVector : Bool}
    (hcs : characters? token = some cs) (hdigits : IsLongNumeral digits) (h : IsAround isVector digits cs) :
    token.IsLongDim := by
  obtain ⟨finish, hfinish, rfl⟩ := h
  exact ⟨start isVector, mem_starts_iff.mpr ⟨isVector, rfl⟩, digits, hdigits, finish, hfinish, hcs⟩

end Dim

/-! ## Extents -/

/-- How a numeral is read. -/
theorem readExtent_numeral {cs : List Char} (h : isPositiveNumeral cs = true) :
    readExtent cs = if maxNumeralDigits < cs.length then .tooLong else .extent (some (numeralValue cs)) := by
  have hne {other : List Char} (hother : isPositiveNumeral other = false) : cs ≠ other := by
    rintro rfl
    rw [h] at hother
    cases hother
  rw [readExtent, if_neg (hne (by decide)), if_neg (hne (by decide)), if_pos h]

/-- What is no numeral is read as `none`, as a zero or not at all. -/
theorem readExtent_of_not_numeral {cs : List Char} (h : isPositiveNumeral cs = false) :
    readExtent cs = if cs = ['n', 'o', 'n', 'e'] then .extent none else if cs = ['0'] then .zero else .none := by
  rw [readExtent, h, if_neg Bool.false_ne_true]

/-- The text of an extent is too long exactly if it is a long numeral. -/
theorem readExtent_eq_tooLong_iff {cs : List Char} : readExtent cs = .tooLong ↔ IsLongNumeral cs := by
  cases h : isPositiveNumeral cs with
  | true =>
    rw [readExtent_numeral h]
    split
    · next hlong => exact iff_of_true rfl ⟨h, hlong⟩
    · next hshort => exact iff_of_false (fun heq => nomatch heq) fun hlong => hshort hlong.long
  | false =>
    refine iff_of_false ?_ fun hlong => Bool.false_ne_true (h.symm.trans hlong.numeral)
    rw [readExtent_of_not_numeral h]
    split
    · exact fun heq => nomatch heq
    · split <;> exact fun heq => nomatch heq

/-- An extent is read from its texts, unless these are too long. -/
theorem readExtent_eq_extent_iff {cs : List Char} {e : Extent} :
    readExtent cs = .extent e ↔ IsExtentText cs e ∧ ¬ IsLongNumeral cs := by
  cases h : isPositiveNumeral cs with
  | true =>
    rw [readExtent_numeral h]
    constructor
    · intro heq
      split at heq
      · cases heq
      · next hshort =>
        cases heq
        rw [numeralValue_eq_ofDigits]
        exact ⟨.known (isPositiveNumeral_iff.mp h), fun hlong => hshort hlong.long⟩
    · rintro ⟨htext, hshort⟩
      rw [if_neg fun hlong => hshort ⟨h, hlong⟩]
      cases htext with
      | unknown => cases h
      | known => rw [numeralValue_eq_ofDigits]
  | false =>
    have hlong : ¬ IsLongNumeral cs := fun hlong => Bool.false_ne_true (h.symm.trans hlong.numeral)
    rw [readExtent_of_not_numeral h, and_iff_left hlong]
    constructor
    · intro heq
      split at heq
      · next hnone =>
        cases heq
        rw [hnone]
        exact .unknown
      · split at heq <;> cases heq
    · intro htext
      cases htext with
      | unknown => rfl
      | known hnumeral => exact absurd (isPositiveNumeral_iff.mpr hnumeral) (Bool.eq_false_iff.mp h)

/-- A zero is refused for being zero, and nothing else is. -/
theorem readExtent_eq_zero_iff {cs : List Char} : readExtent cs = .zero ↔ cs = ['0'] := by
  cases h : isPositiveNumeral cs with
  | true =>
    rw [readExtent_numeral h]
    refine iff_of_false ?_ fun heq => by rw [heq] at h; cases h
    split <;> exact fun heq => nomatch heq
  | false =>
    rw [readExtent_of_not_numeral h]
    split
    · next hnone =>
      rw [hnone]
      exact iff_of_false (fun heq => nomatch heq) (by decide)
    · split
      · next hzero => exact iff_of_true rfl hzero
      · next hzero => exact iff_of_false (fun heq => nomatch heq) hzero

/-- Nothing is said about any other text. -/
theorem readExtent_eq_none_iff {cs : List Char} :
    readExtent cs = .none ↔ cs ≠ ['0'] ∧ ∀ e, ¬ IsExtentText cs e := by
  constructor
  · intro h
    refine ⟨?_, fun e htext => ?_⟩
    · rintro rfl
      cases h
    · by_cases hlong : IsLongNumeral cs
      · rw [readExtent_eq_tooLong_iff.mpr hlong] at h
        cases h
      · rw [readExtent_eq_extent_iff.mpr ⟨htext, hlong⟩] at h
        cases h
  · rintro ⟨hzero, hother⟩
    cases hreading : readExtent cs with
    | extent e => exact absurd (readExtent_eq_extent_iff.mp hreading).1 (hother e)
    | zero => exact absurd (readExtent_eq_zero_iff.mp hreading) hzero
    | tooLong =>
      have hnumeral := isPositiveNumeral_iff.mp (readExtent_eq_tooLong_iff.mp hreading).numeral
      exact absurd (.known hnumeral) (hother _)
    | none => rfl

/-- What is read of an extent consists of digits and the letters of `none`, and is not empty. -/
theorem isDecimalDigit_of_readExtent {cs : List Char} (h : readExtent cs ≠ .none) :
    cs ≠ [] ∧ ∀ c ∈ cs, isDecimalDigit c = true ∨ c ∈ ['n', 'o', 'n', 'e'] := by
  cases hnumeral : isPositiveNumeral cs with
  | true =>
    refine ⟨?_, fun c hc => .inl (isDecimalDigit_of_mem_numeral hnumeral c hc)⟩
    rintro rfl
    cases hnumeral
  | false =>
    rw [readExtent_of_not_numeral hnumeral] at h
    split at h
    · next hnone =>
      rw [hnone]
      exact ⟨List.cons_ne_nil _ _, fun c hc => .inr hc⟩
    · split at h
      · next hzero =>
        rw [hzero]
        exact ⟨List.cons_ne_nil _ _, List.forall_mem_singleton.mpr (by decide)⟩
      · contradiction

/-- An extent that can be written in a token: unknown, or a positive number that is not too long. -/
def IsWritable (e : Extent) : Prop := ∀ n ∈ e, 0 < n ∧ (Nat.toDigits 10 n).length ≤ maxNumeralDigits

/-- The numbers that can be written are the positive ones below a power of ten. -/
theorem isWritable_iff {e : Extent} : IsWritable e ↔ ∀ n ∈ e, 0 < n ∧ n < 10 ^ maxNumeralDigits := by
  have hpos : 0 < maxNumeralDigits := by decide
  exact forall₂_congr fun n _ => and_congr_right fun _ => length_toDigits_le_iff hpos

/-- An extent that is read can be written. -/
theorem isWritable_of_readExtent {cs : List Char} {e : Extent} (h : readExtent cs = .extent e) : IsWritable e := by
  obtain ⟨htext, hshort⟩ := readExtent_eq_extent_iff.mp h
  rw [isWritable_iff]
  cases htext with
  | unknown => exact fun n hn => nomatch hn
  | known hnumeral =>
    intro n hn
    cases hn
    have hdigits := isPositiveNumeral_iff.mpr hnumeral
    have hlength : cs.length ≤ maxNumeralDigits := Nat.not_lt.mp fun hlong => hshort ⟨hdigits, hlong⟩
    rw [← numeralValue_eq_ofDigits]
    exact ⟨numeralValue_pos hdigits, numeralValue_lt_of_length_le hlength⟩

/-- A written extent is read back. -/
theorem readExtent_extentText {e : Extent} (h : IsWritable e) : readExtent (extentText e).toList = .extent e := by
  cases e with
  | none => rfl
  | some n =>
    obtain ⟨hpos, hlength⟩ := h n rfl
    have htext : (extentText (some n)).toList = Nat.toDigits 10 n := Nat.toList_repr
    rw [htext, readExtent_numeral (isPositiveNumeral_toDigits hpos), if_neg (Nat.not_lt.mpr hlength),
      numeralValue_toDigits]

/-! ## Dimensions -/

/-- What stands around an extent of which something is said is found by taking it off. -/
theorem Dim.isAround_iff {cs extent : List Char} {isVector : Bool} (h : readExtent extent ≠ .none) :
    IsAround isVector extent cs ↔ (splitFinalBreak cs).1 = start isVector ++ extent := by
  obtain ⟨hne, hcharacters⟩ := isDecimalDigit_of_readExtent h
  refine (splitFinalBreak_fst_eq_iff ?_).symm
  rw [List.getLast?_append_of_ne_nil _ hne]
  intro hlast
  exact absurd (hcharacters '\n' (List.mem_of_getLast? hlast)) (by decide)

/-- The text of a dimension is read in parts: its start, and an extent of which something can be said. -/
theorem readDim_eq_iff {cs : List Char} {dim : Extent → Dim} {reading : ExtentReading} (hreading : reading ≠ .none) :
    readDim cs = (dim, reading) ↔
      ∃ isVector extent, Dim.IsAround isVector extent cs ∧ readExtent extent = reading ∧ dim = Dim.ofKind isVector := by
  have haround {isVector : Bool} {extent : List Char} (h : readExtent extent = reading) :
      Dim.IsAround isVector extent cs ↔ (splitFinalBreak cs).1 = Dim.start isVector ++ extent :=
    Dim.isAround_iff (h ▸ hreading)
  unfold readDim
  dsimp only
  generalize (splitFinalBreak cs).1 = body at haround
  cases hstart : afterStart? ['v', 'e', 'c', 't', 'o', 'r', ':'] body with
  | some rest =>
    have hbody := afterStart?_eq_some_iff.mp hstart
    constructor
    · intro h
      obtain ⟨rfl, hrest⟩ := Prod.mk.inj h
      exact ⟨true, rest, (haround hrest).mpr hbody, hrest, rfl⟩
    · rintro ⟨isVector, extent, hextent, hread, rfl⟩
      have heq := hbody.symm.trans ((haround hread).mp hextent)
      cases isVector with
      | true =>
        have hrest : rest = extent := List.append_cancel_left heq
        rw [hrest]
        exact congrArg (Prod.mk Dim.vector) hread
      | false =>
        -- no extent of which something is said has the letters of `vector`
        have hletter : 'v' ∈ extent := by
          rw [← List.nil_append extent]
          exact heq ▸ List.mem_cons_self
        exact absurd ((isDecimalDigit_of_readExtent (hread ▸ hreading)).2 'v' hletter) (by decide)
  | none =>
    constructor
    · intro h
      obtain ⟨rfl, hbody⟩ := Prod.mk.inj h
      exact ⟨false, body, (haround hbody).mpr rfl, hbody, rfl⟩
    · rintro ⟨isVector, extent, hextent, hread, rfl⟩
      have heq := (haround hread).mp hextent
      cases isVector with
      | true => cases hstart.symm.trans (afterStart?_eq_some_iff.mpr heq)
      | false =>
        have hbody : body = extent := heq
        rw [hbody]
        exact congrArg (Prod.mk Dim.block) hread

/-- What is said about an extent is said about a text that stands at its place. -/
theorem readDim_snd_eq_iff {cs : List Char} {reading : ExtentReading} (hreading : reading ≠ .none) :
    (readDim cs).2 = reading ↔ ∃ isVector extent, Dim.IsAround isVector extent cs ∧ readExtent extent = reading := by
  constructor
  · intro h
    obtain ⟨isVector, extent, haround, hextent, _⟩ := (readDim_eq_iff hreading).mp (Prod.ext rfl h)
    exact ⟨isVector, extent, haround, hextent⟩
  · rintro ⟨isVector, extent, haround, hextent⟩
    rw [(readDim_eq_iff hreading).mpr ⟨isVector, extent, haround, hextent, rfl⟩]

/-- Nothing is said about an extent if nothing is said about any text that stands at its place. -/
theorem readDim_snd_eq_none_iff {cs : List Char} :
    (readDim cs).2 = .none ↔ ∀ isVector extent, Dim.IsAround isVector extent cs → readExtent extent = .none := by
  constructor
  · intro h isVector extent haround
    by_contra hextent
    have hread := (readDim_snd_eq_iff hextent).mpr ⟨isVector, extent, haround, rfl⟩
    exact hextent (hread.symm.trans h)
  · intro h
    by_contra hreading
    obtain ⟨isVector, extent, haround, hextent⟩ := (readDim_snd_eq_iff hreading).mp rfl
    exact hreading (hextent.symm.trans (h isVector extent haround))

namespace Dim

/-- What becomes of a token that has characters, by what these say about an extent. -/
theorem ofToken_of_characters {token : Value} {cs : List Char} (hcs : characters? token = some cs) :
    (∀ d, ofToken token = .ok d ↔ ∃ dim e, readDim cs = (dim, .extent e) ∧ d = dim e) ∧
      (ofToken token = refuse (.dimensionZero token) ↔ (readDim cs).2 = .zero) ∧
      (ofToken token = refuse (.dimensionFormat token) ↔ (readDim cs).2 = .none) ∧
      ∀ f, ofToken token = .error (.fault f) ↔ f = .numeralTooLong ∧ (readDim cs).2 = .tooLong := by
  obtain ⟨dim, reading, hdim⟩ : ∃ dim reading, readDim cs = (dim, reading) := ⟨_, _, rfl⟩
  cases token
  case string | int =>
    cases hcs
    simp only [ofToken, Option.map_some, hdim]
    cases reading <;> simp [refuse, eq_comm]
  all_goals cases hcs

/-- A token without characters is refused for its format. -/
theorem ofToken_of_no_characters {token : Value} (h : characters? token = none) :
    ofToken token = refuse (.dimensionFormat token) := by
  cases token
  case string | int => cases h
  all_goals rfl

/-- Reading a dimension ends in a fault exactly for a token with a long numeral. -/
theorem ofToken_eq_fault_iff {token : Value} {f : Fault} :
    ofToken token = .error (.fault f) ↔ f = .numeralTooLong ∧ token.IsLongDim := by
  cases hcs : characters? token with
  | some cs =>
    rw [(ofToken_of_characters hcs).2.2.2, readDim_snd_eq_iff ExtentReading.noConfusion]
    refine and_congr_right fun _ => ?_
    constructor
    · rintro ⟨isVector, digits, haround, hdigits⟩
      exact isLongDim_of_isAround hcs (readExtent_eq_tooLong_iff.mp hdigits) haround
    · rintro ⟨front, hfront, digits, hdigits, finish, hfinish, heq⟩
      obtain rfl := Option.some.inj (hcs.symm.trans heq)
      obtain ⟨isVector, rfl⟩ := mem_starts_iff.mp hfront
      exact ⟨isVector, digits, ⟨finish, hfinish, rfl⟩, readExtent_eq_tooLong_iff.mpr hdigits⟩
  | none =>
    rw [ofToken_of_no_characters hcs]
    refine iff_of_false (fun h => nomatch h) ?_
    rintro ⟨_, _, _, _, _, _, _, heq⟩
    rw [hcs] at heq
    cases heq

/-- A token whose reading does not end in a fault has no long numeral. -/
theorem not_isLongDim {token : Value} (h : ofToken token ≠ .error (.fault .numeralTooLong)) : ¬ token.IsLongDim :=
  fun hlong => h (ofToken_eq_fault_iff.mpr ⟨rfl, hlong⟩)

section Characters

variable {token : Value} {cs : List Char} (hcs : characters? token = some cs)

include hcs

/-- A dimension is read if an extent is, and what stands in front of it gives the kind. -/
theorem ofToken_eq_ok_iff {d : Dim} :
    ofToken token = .ok d ↔ ∃ extent, IsAround d.isVector extent cs ∧ readExtent extent = .extent d.extent := by
  rw [(ofToken_of_characters hcs).1]
  constructor
  · rintro ⟨dim, e, hdim, rfl⟩
    obtain ⟨isVector, extent, haround, hextent, rfl⟩ := (readDim_eq_iff ExtentReading.noConfusion).mp hdim
    rw [isVector_ofKind, extent_ofKind]
    exact ⟨extent, haround, hextent⟩
  · rintro ⟨extent, haround, hextent⟩
    exact ⟨_, _, (readDim_eq_iff ExtentReading.noConfusion).mpr ⟨d.isVector, extent, haround, hextent, rfl⟩,
      eq_ofKind d⟩

/-- A dimension is read from the texts of its extent behind the start for its kind, unless these are too long. -/
theorem ofToken_eq_ok_iff_text {d : Dim} :
    ofToken token = .ok d ↔
      ¬ token.IsLongDim ∧ ∃ extent, IsAround d.isVector extent cs ∧ IsExtentText extent d.extent := by
  constructor
  · intro h
    obtain ⟨extent, haround, hextent⟩ := (ofToken_eq_ok_iff hcs).mp h
    have hshort : ¬ token.IsLongDim := not_isLongDim fun hfault => nomatch h.symm.trans hfault
    exact ⟨hshort, extent, haround, (readExtent_eq_extent_iff.mp hextent).1⟩
  · rintro ⟨hshort, extent, haround, htext⟩
    have hextent : readExtent extent = .extent d.extent :=
      readExtent_eq_extent_iff.mpr ⟨htext, fun hlong => hshort (isLongDim_of_isAround hcs hlong haround)⟩
    exact (ofToken_eq_ok_iff hcs).mpr ⟨extent, haround, hextent⟩

/-- A zero is refused, behind `vector:` too. -/
theorem ofToken_eq_zero_iff :
    ofToken token = refuse (.dimensionZero token) ↔ ∃ isVector, IsAround isVector ['0'] cs := by
  rw [(ofToken_of_characters hcs).2.1, readDim_snd_eq_iff ExtentReading.noConfusion]
  simp only [readExtent_eq_zero_iff, exists_eq_right]

/-- Everything else is refused for its format. -/
theorem ofToken_eq_format_iff :
    ofToken token = refuse (.dimensionFormat token) ↔
      ∀ isVector extent, IsAround isVector extent cs → extent ≠ ['0'] ∧ ∀ e, ¬ IsExtentText extent e := by
  rw [(ofToken_of_characters hcs).2.2.1, readDim_snd_eq_none_iff]
  simp only [readExtent_eq_none_iff]

end Characters

/-! ## Printed dimensions -/

/-- A printed dimension is read back. -/
theorem ofToken_text {d : Dim} (h : IsWritable d.extent) : ofToken (.string d.text) = .ok d := by
  have haround : IsAround d.isVector (extentText d.extent).toList d.text.toList := by
    refine ⟨[], List.mem_cons_self, ?_⟩
    rw [List.append_nil]
    cases d with
    | vector e => exact String.toList_append
    | block e => rfl
  exact (ofToken_eq_ok_iff rfl).mpr ⟨_, haround, readExtent_extentText h⟩

/-- A dimension that is read has an extent that can be written. -/
theorem isWritable_of_ofToken {token : Value} {d : Dim} (h : ofToken token = .ok d) : IsWritable d.extent := by
  cases hcs : characters? token with
  | some cs =>
    obtain ⟨extent, _, hextent⟩ := (ofToken_eq_ok_iff hcs).mp h
    exact isWritable_of_readExtent hextent
  | none =>
    rw [ofToken_of_no_characters hcs] at h
    cases h

/-- Which dimension a text or a whole number is read as, if its numeral is not too long, and why it is refused
otherwise. A dimension that is read has a positive extent or none; it is printed as a token for itself, and so is every
other one whose extent is unknown or positive with at most 4300 digits. -/
theorem ofToken_reads_numerals :
    (∀ token cs, characters? token = some cs →
      (∀ d, ofToken token = .ok d ↔
        ¬ token.IsLongDim ∧ ∃ extent, IsAround d.isVector extent cs ∧ IsExtentText extent d.extent) ∧
      (ofToken token = refuse (.dimensionZero token) ↔ ∃ isVector, IsAround isVector ['0'] cs) ∧
      (ofToken token = refuse (.dimensionFormat token) ↔
        ∀ isVector extent, IsAround isVector extent cs → extent ≠ ['0'] ∧ ∀ e, ¬ IsExtentText extent e)) ∧
    (∀ token d, ofToken token = .ok d → (∀ n ∈ d.extent, 0 < n) ∧ ofToken (.string d.text) = .ok d) ∧
    ∀ d : Dim, (∀ n ∈ d.extent, 0 < n ∧ n < 10 ^ maxNumeralDigits) → ofToken (.string d.text) = .ok d := by
  refine ⟨fun token cs hcs => ?_, fun token d h => ?_, fun d h => ofToken_text (isWritable_iff.mpr h)⟩
  · exact ⟨fun d => ofToken_eq_ok_iff_text hcs, ofToken_eq_zero_iff hcs, ofToken_eq_format_iff hcs⟩
  · have hwritable := isWritable_of_ofToken h
    exact ⟨fun n hn => (hwritable n hn).1, ofToken_text hwritable⟩

/-- Digits of two scripts in front of a line break are one number, which is printed in ASCII digits. -/
theorem ofToken_reads_numerals_mixed :
    ofToken (.string "vector:1٣\n") = .ok (.vector (some 13)) ∧
      ofToken (.string "vector:13") = .ok (.vector (some 13)) ∧ ofToken (.string "407") = .ok (.block (some 407)) := by
  have hshort : ¬ (Value.string "vector:1٣\n").IsLongDim := not_isLongDim fun hfault => nomatch hfault
  have hnumeral : IsNumeral ['1', '٣'] := isPositiveNumeral_iff.mp rfl
  have hread : ofToken (.string "vector:1٣\n") = .ok (.vector (some 13)) :=
    ((ofToken_reads_numerals.1 _ _ rfl).1 _).mpr ⟨hshort, ['1', '٣'], ⟨['\n'], by decide, rfl⟩, .known hnumeral⟩
  have hbelow : 407 < 10 ^ maxNumeralDigits :=
    Nat.lt_of_lt_of_le (by decide : 407 < 10 ^ 3) (Nat.pow_le_pow_right (by decide) (by decide))
  refine ⟨hread, (ofToken_reads_numerals.2.1 _ _ hread).2, ofToken_reads_numerals.2.2 (.block (some 407)) ?_⟩
  intro n hn
  cases hn
  exact ⟨by decide, hbelow⟩

end Dim

end TensorBridge
