import Mathlib.Data.List.Basic
import TensorBridge.Operator.AttrType
import TensorBridge.Proofs.Text.Numerals
import TensorBridge.Proofs.Text.Parted

/-!
# Literals of attribute types

The grammar of the default values, one rule for each form: a text between quotes of one kind that are not in it, a whole
number, a number with a point or without one, and the words for the truth values. The test of the reader accepts these
literals and, beyond them, texts between quotes that do hold their own quote.
-/

namespace TensorBridge

/-- A zero, or a numeral without leading zero. -/
def IsWholePart (cs : List Char) : Prop := cs = ['0'] ∨ IsNumeral cs

/-- A row of decimal digits, at least one. -/
def IsFraction (cs : List Char) : Prop := cs ≠ [] ∧ ∀ c ∈ cs, isDecimalDigit c = true

/-- Whether a character can stand in a number or in a word for a truth value. -/
def IsScalarChar (c : Char) : Prop := isDecimalDigit c = true ∨ c.isAlpha = true ∨ c = '-' ∨ c = '.'

namespace AttrType

/-- The literals of the types. -/
inductive IsLiteralOf : AttrKind → List Char → Prop
  | quoted {quote : Char} {inner : List Char} (delimits : quote ∈ ['\x27', '\x22']) (apart : quote ∉ inner) :
    IsLiteralOf .string (quote :: inner ++ [quote])
  | zero : IsLiteralOf .int ['0']
  | whole {sign digits : List Char} (signed : sign ∈ [[], ['-']]) (numeral : IsNumeral digits) :
    IsLiteralOf .int (sign ++ digits)
  | unpointed {sign digits : List Char} (signed : sign ∈ [[], ['-']]) (numeral : IsWholePart digits) :
    IsLiteralOf .float (sign ++ digits)
  | pointed {sign digits fraction : List Char} (signed : sign ∈ [[], ['-']])
    (numeral : digits = [] ∨ IsWholePart digits) (decimals : IsFraction fraction) :
    IsLiteralOf .float (sign ++ (digits ++ '.' :: fraction))
  | truth {word : String} (listed : word ∈ ["0", "1", "false", "true", "False", "True"]) :
    IsLiteralOf .bool word.toList

/-- A string whose default holds its own quote between its quotes. -/
def HoldsQuote (kind : AttrKind) (cs : List Char) : Prop :=
  kind = .string ∧ ∃ quote ∈ ['\x27', '\x22'], ∃ inner, quote ∈ inner ∧ cs = quote :: inner ++ [quote]

/-! ## What the reader tests -/

/-- A quoted text has the same quote at its start and at its end. -/
theorem isQuotedText_iff {cs : List Char} :
    isQuotedText cs = true ↔ ∃ quote ∈ ['\x27', '\x22'], ∃ inner, cs = quote :: inner ++ [quote] := by
  cases cs with
  | nil => simp [isQuotedText]
  | cons first rest =>
    rw [isQuotedText, Bool.and_eq_true, Bool.or_eq_true, beq_iff_eq, beq_iff_eq, beq_iff_eq]
    constructor
    · rintro ⟨hfirst, hlast⟩
      obtain ⟨inner, rfl⟩ := List.getLast?_eq_some_iff.mp hlast
      exact ⟨first, by simpa using hfirst, inner, rfl⟩
    · rintro ⟨quote, hquote, inner, hcs⟩
      obtain ⟨rfl, rfl⟩ := List.cons.inj hcs
      exact ⟨by simpa using hquote, List.getLast?_concat⟩

/-- The reader tests for whole parts. -/
theorem isWholePart_iff {cs : List Char} : (cs == ['0'] || isPositiveNumeral cs) = true ↔ IsWholePart cs := by
  rw [Bool.or_eq_true, beq_iff_eq, isPositiveNumeral_iff, IsWholePart]

/-- A whole part consists of digits. -/
theorem isDecimalDigit_of_mem_wholePart {cs : List Char} (h : IsWholePart cs) : ∀ c ∈ cs, isDecimalDigit c = true := by
  rcases h with rfl | h
  · exact List.forall_mem_singleton.mpr (by decide)
  · exact isDecimalDigit_of_mem_numeral (isPositiveNumeral_iff.mpr h)

/-- Digits in front of a point are what stands before the first point. -/
theorem split_at_point {digits : List Char} (h : ∀ c ∈ digits, isDecimalDigit c = true) (rest : List Char) :
    (digits ++ '.' :: rest).takeWhile (· ≠ '.') = digits ∧
      (digits ++ '.' :: rest).dropWhile (· ≠ '.') = '.' :: rest := by
  refine parted_at_iff.mpr ⟨rfl, fun hmem => absurd (h '.' hmem) (by decide), fun c hc => ?_⟩
  cases hc
  rfl

/-- What stands before a point consists of digits. -/
theorem isDecimalDigit_of_mem_pointed {cs : List Char} (h : cs = [] ∨ IsWholePart cs) :
    ∀ c ∈ cs, isDecimalDigit c = true := by
  rcases h with rfl | h
  · exact List.forall_mem_nil _
  · exact isDecimalDigit_of_mem_wholePart h

/-- Numbers without sign are whole parts, or whole parts that may be left out with a fraction behind a point. -/
theorem isUnsignedNumber_iff {cs : List Char} :
    isUnsignedNumber cs = true ↔ IsWholePart cs ∨
      ∃ digits fraction, (digits = [] ∨ IsWholePart digits) ∧ IsFraction fraction ∧ cs = digits ++ '.' :: fraction := by
  unfold isUnsignedNumber
  dsimp only
  cases hdrop : cs.dropWhile (· ≠ '.') with
  | nil =>
    obtain ⟨hcs, _⟩ := parted_at_iff.mp ⟨rfl, hdrop⟩
    rw [List.append_nil] at hcs
    rw [← hcs, isWholePart_iff]
    refine (or_iff_left ?_).symm
    rintro ⟨digits, fraction, hdigits, _, rfl⟩
    rw [(split_at_point (isDecimalDigit_of_mem_pointed hdigits) fraction).2] at hdrop
    cases hdrop
  | cons point fraction =>
    obtain ⟨hcs, _, hpoint⟩ := parted_at_iff.mp ⟨rfl, hdrop⟩
    obtain rfl := hpoint point rfl
    rw [Bool.and_eq_true, Bool.and_eq_true, Bool.or_eq_true, isWholePart_iff, List.isEmpty_iff, Bool.not_eq_true',
      List.isEmpty_eq_false_iff, List.all_eq_true, and_assoc]
    constructor
    · rintro ⟨hdigits, hfraction⟩
      exact .inr ⟨_, fraction, hdigits.symm, hfraction, hcs⟩
    · rintro (h | ⟨digits, fraction', hdigits, hfraction, rfl⟩)
      · have hmem : '.' ∈ cs := by
          rw [hcs]
          exact List.mem_append_right _ List.mem_cons_self
        exact absurd (isDecimalDigit_of_mem_wholePart h '.' hmem) (by decide)
      · obtain ⟨htake, htail⟩ := split_at_point (isDecimalDigit_of_mem_pointed hdigits) fraction'
        rw [htail] at hdrop
        cases hdrop
        rw [htake]
        exact ⟨hdigits.symm, hfraction⟩

/-! ## Signs -/

section Signed

variable {P : List Char → Prop}

/-- What may stand behind a minus does so, if it does not start with a minus itself. -/
theorem signed_minus_iff (hP : ∀ rest, ¬ P ('-' :: rest)) {rest : List Char} :
    (∃ sign ∈ [[], ['-']], ∃ body, P body ∧ '-' :: rest = sign ++ body) ↔ P rest := by
  constructor
  · rintro ⟨sign, hsign, body, hbody, h⟩
    rcases List.mem_pair.mp hsign with rfl | rfl
    · rw [List.nil_append] at h
      exact absurd (h ▸ hbody) (hP rest)
    · rwa [(List.cons.inj h).2]
  · exact fun h => ⟨['-'], by simp, rest, h, rfl⟩

/-- Without a minus there is no sign. -/
theorem signed_plain_iff {cs : List Char} (hplain : ∀ rest, cs ≠ '-' :: rest) :
    (∃ sign ∈ [[], ['-']], ∃ body, P body ∧ cs = sign ++ body) ↔ P cs := by
  constructor
  · rintro ⟨sign, hsign, body, hbody, rfl⟩
    rcases List.mem_pair.mp hsign with rfl | rfl
    · exact hbody
    · exact absurd rfl (hplain body)
  · exact fun h => ⟨[], by simp, cs, h, rfl⟩

end Signed

/-- A numeral does not start with a minus. -/
theorem not_isNumeral_minus (rest : List Char) : ¬ IsNumeral ('-' :: rest) := fun h =>
  absurd (isDecimalDigit_of_mem_numeral (isPositiveNumeral_iff.mpr h) '-' List.mem_cons_self) (by decide)

/-- A number without sign does not start with a minus. -/
theorem not_isUnsignedNumber_minus (rest : List Char) : ¬ isUnsignedNumber ('-' :: rest) = true := by
  rw [isUnsignedNumber_iff]
  rintro (h | ⟨digits, fraction, hdigits, _, h⟩)
  · exact absurd (isDecimalDigit_of_mem_wholePart h '-' List.mem_cons_self) (by decide)
  · cases digits with
    | nil => cases h
    | cons digit digits =>
      have hdigit := isDecimalDigit_of_mem_pointed hdigits digit List.mem_cons_self
      rw [← (List.cons.inj h).1] at hdigit
      exact absurd hdigit (by decide)

/-- Whole numbers are a zero, or numerals with or without a minus. -/
theorem isWholeNumber_iff {cs : List Char} :
    isWholeNumber cs = true ↔ cs = ['0'] ∨ ∃ sign ∈ [[], ['-']], ∃ digits, IsNumeral digits ∧ cs = sign ++ digits := by
  unfold isWholeNumber
  split
  · next rest =>
    rw [signed_minus_iff not_isNumeral_minus, isPositiveNumeral_iff]
    exact (or_iff_right (fun h => nomatch h)).symm
  · next hplain => rw [signed_plain_iff hplain, isWholePart_iff, IsWholePart]

/-- Numbers are those without sign, with or without a minus. -/
theorem isNumber_iff {cs : List Char} :
    isNumber cs = true ↔ ∃ sign ∈ [[], ['-']], ∃ body, isUnsignedNumber body = true ∧ cs = sign ++ body := by
  unfold isNumber
  split
  · exact (signed_minus_iff (P := (isUnsignedNumber · = true)) not_isUnsignedNumber_minus).symm
  · next hplain => exact (signed_plain_iff (P := (isUnsignedNumber · = true)) hplain).symm

/-! ## Literals -/

/-- The reader accepts literals, and strings that hold their own quote. -/
theorem isLiteral_iff {kind : AttrKind} {value : String} :
    isLiteral kind value = true ↔ IsLiteralOf kind value.toList ∨ HoldsQuote kind value.toList := by
  cases kind with
  | string =>
    rw [isLiteral, isQuotedText_iff]
    constructor
    · rintro ⟨quote, hquote, inner, hvalue⟩
      rw [hvalue]
      by_cases hinner : quote ∈ inner
      · exact .inr ⟨rfl, quote, hquote, inner, hinner, rfl⟩
      · exact .inl (.quoted hquote hinner)
    · generalize value.toList = cs
      rintro (h | ⟨_, quote, hquote, inner, _, rfl⟩)
      · cases h with
        | quoted hquote _ => exact ⟨_, hquote, _, rfl⟩
      · exact ⟨quote, hquote, inner, rfl⟩
  | int =>
    rw [isLiteral, isWholeNumber_iff]
    generalize value.toList = cs
    constructor
    · rintro (rfl | ⟨sign, hsign, digits, hdigits, rfl⟩)
      · exact .inl .zero
      · exact .inl (.whole hsign hdigits)
    · rintro (h | ⟨h, _⟩)
      · cases h with
        | zero => exact .inl rfl
        | whole hsign hdigits => exact .inr ⟨_, hsign, _, hdigits, rfl⟩
      · cases h
  | float =>
    rw [isLiteral, isNumber_iff]
    simp only [isUnsignedNumber_iff]
    generalize value.toList = cs
    constructor
    · rintro ⟨sign, hsign, body, h | ⟨digits, fraction, hdigits, hfraction, rfl⟩, rfl⟩
      · exact .inl (.unpointed hsign h)
      · exact .inl (.pointed hsign hdigits hfraction)
    · rintro (h | ⟨h, _⟩)
      · cases h with
        | unpointed hsign h => exact ⟨_, hsign, _, .inl h, rfl⟩
        | pointed hsign hdigits hfraction => exact ⟨_, hsign, _, .inr ⟨_, _, hdigits, hfraction, rfl⟩, rfl⟩
      · cases h
  | bool =>
    rw [isLiteral, List.contains_iff_mem]
    constructor
    · exact fun h => .inl (.truth h)
    · rintro (h | ⟨h, _⟩)
      · generalize hcs : value.toList = cs at h
        cases h with
        | truth hword => rwa [String.toList_inj.mp hcs]
      · cases h

/-- A literal does not hold its own quote. -/
theorem IsLiteralOf.not_holdsQuote {kind : AttrKind} {cs : List Char} (h : IsLiteralOf kind cs) :
    ¬ HoldsQuote kind cs := by
  rintro ⟨rfl, quote, _, inner, hinner, rfl⟩
  generalize hcs : quote :: inner ++ [quote] = cs at h
  cases h with
  | quoted _ hapart =>
    obtain ⟨rfl, hrest⟩ := List.cons.inj hcs
    rw [List.append_cancel_right hrest] at hinner
    exact hapart hinner

/-! ## Characters of literals -/

/-- The literals of all types but strings are written with digits, letters, a point and a minus. -/
theorem IsLiteralOf.isScalarChar {kind : AttrKind} {cs : List Char} (h : IsLiteralOf kind cs)
    (hkind : kind ≠ .string) : ∀ c ∈ cs, IsScalarChar c := by
  have hdigits {l : List Char} (hl : ∀ c ∈ l, isDecimalDigit c = true) : ∀ c ∈ l, IsScalarChar c :=
    fun c hc => .inl (hl c hc)
  have hsign {l : List Char} (hl : l ∈ [[], ['-']]) : ∀ c ∈ l, IsScalarChar c := by
    rcases List.mem_pair.mp hl with rfl | rfl
    · exact List.forall_mem_nil _
    · exact List.forall_mem_singleton.mpr (.inr (.inr (.inl rfl)))
  cases h with
  | quoted => exact absurd rfl hkind
  | zero => exact hdigits (List.forall_mem_singleton.mpr (by decide))
  | whole signed numeral =>
    exact List.forall_mem_append.mpr
      ⟨hsign signed, hdigits (isDecimalDigit_of_mem_numeral (isPositiveNumeral_iff.mpr numeral))⟩
  | unpointed signed numeral =>
    exact List.forall_mem_append.mpr ⟨hsign signed, hdigits (isDecimalDigit_of_mem_wholePart numeral)⟩
  | pointed signed numeral decimals =>
    rw [List.forall_mem_append, List.forall_mem_append, List.forall_mem_cons]
    exact ⟨hsign signed, hdigits (isDecimalDigit_of_mem_pointed numeral), .inr (.inr (.inr rfl)), hdigits decimals.2⟩
  | truth listed =>
    have hwords : ["0", "1", "false", "true", "False", "True"].all
        (·.toList.all fun c => isDecimalDigit c || c.isAlpha) = true := by rfl
    have hword := List.all_eq_true.mp hwords _ listed
    intro c hc
    exact (Bool.or_eq_true_iff.mp (List.all_eq_true.mp hword c hc)).imp_right .inl

/-- What is accepted of all types but strings is written with digits, letters, a point and a minus. -/
theorem isScalarChar_of_isLiteral {kind : AttrKind} {value : String} (hkind : kind ≠ .string)
    (h : isLiteral kind value = true) : ∀ c ∈ value.toList, IsScalarChar c := by
  rcases isLiteral_iff.mp h with h | ⟨hstring, _⟩
  · exact h.isScalarChar hkind
  · exact absurd hstring hkind

end AttrType

end TensorBridge
