/-!
# Halves of surrogate pairs

A data file may name characters by UTF-16 units, and so can name one half of a surrogate pair without
the other. Such a half is no character, but it is part of the text that was read: a text is a row of
symbols, each a character or a half. A string holds a half as a mark with a character for the unit, and
the mark as a character of its own twice, so different rows are different strings. A text with halves has
no encoding: no file can hold it.
-/

namespace TensorBridge

/-- How many units are halves of pairs. -/
abbrev halfCount : Nat := 0x800

/-- The least unit that is half of a pair. -/
def firstHalfUnit : Nat := 0xD800

/-- One symbol of a text. A half is given by the distance of its unit from the least one. -/
inductive Symbol
  | char (c : Char)
  | half (index : Fin halfCount)
deriving DecidableEq, Repr

/-- The mark in front of a half; it is no character of any script. -/
def halfMark : Char := Char.ofNat 0xDFFFE

/-- The character that follows the mark of a half. -/
def halfChar (index : Fin halfCount) : Char := Char.ofNat (0xE000 + index.val)

/-- The half that a character behind a mark stands for. -/
def halfIndex (c : Char) : Fin halfCount := Fin.ofNat halfCount (c.toNat - 0xE000)

namespace Symbol

/-- The characters that hold a symbol. -/
def held : Symbol → List Char
  | .char c => if c = halfMark then [halfMark, halfMark] else [c]
  | .half index => [halfMark, halfChar index]

/-- The UTF-16 unit of a half. -/
def unit (index : Fin halfCount) : Nat := firstHalfUnit + index.val

/-- The symbol of a UTF-16 unit alone. -/
def ofUnit (unit : Nat) : Symbol :=
  if firstHalfUnit ≤ unit ∧ unit < firstHalfUnit + halfCount then
    .half (Fin.ofNat halfCount (unit - firstHalfUnit))
  else .char (Char.ofNat unit)

/-- Whether a symbol is a character. -/
def isChar : Symbol → Bool
  | .char _ => true
  | .half _ => false

end Symbol

/-- The symbols that characters hold. -/
def symbols : List Char → List Symbol
  | [] => []
  | [c] => [.char c]
  | c :: d :: rest =>
    if c = halfMark then (if d = halfMark then .char halfMark else .half (halfIndex d)) :: symbols rest
    else .char c :: symbols (d :: rest)

/-- The text of a row of symbols. -/
def ofSymbols (row : List Symbol) : String := String.ofList (row.flatMap Symbol.held)

/-- The text of characters from outside, where a mark is a character like any other. -/
def textOf (s : String) : String := ofSymbols (s.toList.map .char)

/-- The characters of a text; halves stay as they are held. -/
def characters (text : String) : List Char :=
  (symbols text.toList).flatMap fun
    | .char c => [c]
    | .half index => (Symbol.half index).held

/-- The text as characters for the outside. -/
def plain (text : String) : String := String.ofList (characters text)

/-- Whether a text has an encoding: it holds no halves. -/
def isEncodable (text : String) : Bool := (symbols text.toList).all Symbol.isChar

/-! ## Rows and strings -/

/-- A character other than the mark holds itself. -/
theorem symbols_cons_of_ne {c : Char} (h : c ≠ halfMark) (cs : List Char) :
    symbols (c :: cs) = .char c :: symbols cs := by
  cases cs with
  | nil => simp [symbols]
  | cons d rest => simp [symbols, h]

/-- The characters for halves are found by their code points. -/
theorem toNat_halfChar (index : Fin halfCount) : (halfChar index).toNat = 0xE000 + index.val := by
  have bound : index.val < 0x800 := index.isLt
  have valid : (0xE000 + index.val).isValidChar := Or.inr (by omega)
  unfold halfChar Char.ofNat
  rw [dif_pos valid]
  rfl

/-- The character behind the mark of a half tells which half it is. -/
theorem halfIndex_halfChar (index : Fin halfCount) : halfIndex (halfChar index) = index := by
  apply Fin.ext
  simp [halfIndex, toNat_halfChar]

/-- No half looks like the mark. -/
theorem halfChar_ne_halfMark (index : Fin halfCount) : halfChar index ≠ halfMark := by
  intro h
  have code := congrArg Char.toNat h
  rw [toNat_halfChar] at code
  have mark : halfMark.toNat = 0xDFFFE := rfl
  have bound : index.val < 0x800 := index.isLt
  omega

/-- A string tells which symbols it holds. -/
theorem symbols_flatMap_held (row : List Symbol) : symbols (row.flatMap Symbol.held) = row := by
  induction row with
  | nil => rfl
  | cons s rest ih =>
    cases s with
    | char c =>
      by_cases h : c = halfMark
      · subst h; simp [Symbol.held, symbols, ih]
      · simp [Symbol.held, h, symbols_cons_of_ne h, ih]
    | half index => simp [Symbol.held, symbols, halfChar_ne_halfMark, halfIndex_halfChar, ih]

/-- What comes from outside goes there unchanged. -/
theorem plain_textOf (s : String) : plain (textOf s) = s := by
  unfold plain textOf ofSymbols characters
  rw [String.toList_ofList, symbols_flatMap_held]
  simp [List.flatMap_map]

end TensorBridge
