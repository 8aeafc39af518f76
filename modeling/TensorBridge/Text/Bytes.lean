import TensorBridge.Text.Half

/-!
# Texts as bytes

The names of files and the settings of an environment are rows of bytes. A text stands for the bytes of
its characters. Bytes that belong to no character have a text too: each of them is a half of a surrogate
pair, from the unit U+DC80 to U+DCFF. No other half stands for a byte. Several texts may stand for one
row of bytes; reading the row gives the one among them that names every character it can.
-/

namespace TensorBridge

/-- The distance from a byte to the index of its half. -/
def byteDistance : Nat := 0x400

namespace Symbol

/-- The half for a byte that belongs to no character. -/
def ofByte (b : UInt8) : Symbol :=
  .half ⟨byteDistance + b.toNat, Nat.lt_of_lt_of_le (Nat.add_lt_add_left b.toNat_lt byteDistance) (by decide)⟩

/-- The bytes that a symbol stands for. -/
def bytes? : Symbol → Option (List UInt8)
  | .char c => some (String.utf8EncodeChar c)
  | .half index =>
    if byteDistance + 0x80 ≤ index.val ∧ index.val < byteDistance + 0x100 then
      some [UInt8.ofNat (index.val - byteDistance)]
    else none

end Symbol

/-- The bytes that a row of symbols stands for. -/
def rowBytes? : List Symbol → Option (List UInt8)
  | [] => some []
  | s :: rest => do return (← s.bytes?) ++ (← rowBytes? rest)

/-- The character whose bytes come first. -/
def firstChar? (bytes : List UInt8) : Option Char := (bytes.take 4).toByteArray.utf8DecodeChar? 0

/-- The symbols of a row of bytes without its first `skipped` ones. -/
def byteSymbols : Nat → List UInt8 → List Symbol
  | _, [] => []
  | skipped + 1, _ :: rest => byteSymbols skipped rest
  | 0, b :: rest =>
    match firstChar? (b :: rest) with
    | some c => .char c :: byteSymbols (c.utf8Size - 1) rest
    | none => .ofByte b :: byteSymbols 0 rest

/-- The bytes that a text stands for. -/
def bytes? (text : String) : Option (List UInt8) := rowBytes? (symbols text.toList)

/-- The text of a row of bytes. -/
def ofBytes (bytes : List UInt8) : String := ofSymbols (byteSymbols 0 bytes)

/-- The text of the bytes that a text stands for; a text that stands for none stays. -/
def byteText (text : String) : String := ((bytes? text).map ofBytes).getD text

/-- How many bytes a text stands for. -/
def byteCount (text : String) : Nat := ((bytes? text).getD []).length

/-! ## Bytes and symbols -/

/-- A character is found in front of its bytes. -/
theorem firstChar?_append (c : Char) (rest : List UInt8) :
    firstChar? (String.utf8EncodeChar c ++ rest) = some c := by
  have size := c.utf8Size_le_four
  have all : (String.utf8EncodeChar c).take 4 = String.utf8EncodeChar c :=
    List.take_of_length_le (by rw [String.length_utf8EncodeChar]; exact size)
  unfold firstChar?
  rw [List.take_append, all, List.toByteArray_append, ByteArray.utf8DecodeChar?_utf8EncodeChar_append]

/-- Bytes that are passed over leave those behind them. -/
theorem byteSymbols_length_append (front rest : List UInt8) :
    byteSymbols front.length (front ++ rest) = byteSymbols 0 rest := by
  induction front with
  | nil => rfl
  | cons b front ih => simp [byteSymbols, ih]

/-- The bytes of a character are read as the character. -/
theorem byteSymbols_utf8EncodeChar_append (c : Char) (rest : List UInt8) :
    byteSymbols 0 (String.utf8EncodeChar c ++ rest) = .char c :: byteSymbols 0 rest := by
  have first := firstChar?_append c rest
  have size := String.length_utf8EncodeChar c
  cases bytes : String.utf8EncodeChar c with
  | nil =>
    have positive := c.utf8Size_pos
    rw [bytes] at size
    simp at size
    omega
  | cons b more =>
    rw [bytes] at first size
    have left : c.utf8Size - 1 = more.length := by simp at size; omega
    simp only [List.cons_append] at first ⊢
    rw [byteSymbols, first]
    simp only [left, byteSymbols_length_append]

/-- The text of a text's bytes is the text itself if it has no halves. -/
theorem byteSymbols_flatMap_utf8EncodeChar (cs : List Char) :
    byteSymbols 0 (cs.flatMap String.utf8EncodeChar) = cs.map .char := by
  induction cs with
  | nil => rfl
  | cons c rest ih => simp [byteSymbols_utf8EncodeChar_append, ih]

/-- The character found first has its bytes there. -/
theorem eq_append_of_firstChar?_eq_some {bytes : List UInt8} {c : Char} (h : firstChar? bytes = some c) :
    ∃ rest, bytes = String.utf8EncodeChar c ++ rest := by
  obtain ⟨behind, split⟩ := ByteArray.exists_of_utf8DecodeChar?_eq_some h
  refine ⟨behind.data.toList ++ bytes.drop 4, ?_⟩
  have front : bytes.take 4 = String.utf8EncodeChar c ++ behind.data.toList := by
    have both := congrArg (fun bytes => bytes.data.toList) split
    simpa using both
  rw [← List.append_assoc, ← front, List.take_append_drop]

/-- A byte that is no character's has a half that stands for it. -/
theorem bytes?_ofByte {b : UInt8} (h : 0x80 ≤ b.toNat) : (Symbol.ofByte b).bytes? = some [b] := by
  simpa [Symbol.ofByte, Symbol.bytes?] using ⟨h, b.toNat_lt⟩

/-- A byte below 0x80 is a character. -/
theorem utf8EncodeChar_ofNat {b : UInt8} (h : b.toNat < 0x80) :
    String.utf8EncodeChar (Char.ofNat b.toNat) = [b] := by
  have valid : b.toNat.isValidChar := Or.inl (by omega)
  have code : (Char.ofNat b.toNat).val.toNat = b.toNat := by
    unfold Char.ofNat
    rw [dif_pos valid]
    rfl
  unfold String.utf8EncodeChar
  simp only [code]
  rw [if_pos (by omega), UInt8.ofNat_toNat]

/-- The text of a row of bytes stands for it. -/
theorem rowBytes?_byteSymbols (bytes : List UInt8) : rowBytes? (byteSymbols 0 bytes) = some bytes := by
  induction h : bytes.length using Nat.strongRecOn generalizing bytes with
  | ind n ih =>
    cases bytes with
    | nil => rfl
    | cons b rest =>
      cases first : firstChar? (b :: rest) with
      | some c =>
        obtain ⟨behind, split⟩ := eq_append_of_firstChar?_eq_some first
        have shorter : behind.length < n := by
          have positive := c.utf8Size_pos
          rw [← h, split, List.length_append, String.length_utf8EncodeChar]
          omega
        rw [split, byteSymbols_utf8EncodeChar_append]
        simp [rowBytes?, Symbol.bytes?, ih _ shorter behind rfl]
      | none =>
        have high : 0x80 ≤ b.toNat := by
          apply Nat.le_of_not_lt
          intro low
          have found := firstChar?_append (Char.ofNat b.toNat) rest
          rw [utf8EncodeChar_ofNat low] at found
          simp [first] at found
        have shorter : rest.length < n := by rw [← h]; simp
        rw [byteSymbols, first]
        simp [rowBytes?, bytes?_ofByte high, ih _ shorter rest rfl]

end TensorBridge
