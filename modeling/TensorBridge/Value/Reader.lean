import TensorBridge.Text.DecimalDigit
import TensorBridge.Text.Half
import TensorBridge.Text.Start
import TensorBridge.Value.Basic

/-!
# Reading data files

A reader for JSON text. Beside the standard's grammar it knows the three words for numbers that are not
finite. A repeated field keeps its first place and takes its last value. A whole number of more digits
than a numeral may have stops the reading where it stands, and so does a list or an object inside too
many others. Everything else that is wrong is a malformed text, and is told with the place where it is.
-/

namespace TensorBridge.Value

/-! ## Malformed texts -/

/-- What is wrong with a malformed text. -/
inductive SyntaxFlaw
  | noValue
  | noName
  | noColon
  | noComma
  | stringOpen
  | controlCharacter
  | unknownEscape
  | unknownUnit
  | textBehind
  | byteOrderMark
deriving DecidableEq, Repr

/-- The description of a flaw. -/
def SyntaxFlaw.description : SyntaxFlaw → String
  | .noValue => "Expecting value"
  | .noName => "Expecting property name enclosed in double quotes"
  | .noColon => "Expecting ':' delimiter"
  | .noComma => "Expecting ',' delimiter"
  | .stringOpen => "Unterminated string starting at"
  | .controlCharacter => "Invalid control character at"
  | .unknownEscape => "Invalid \x5cescape"
  | .unknownUnit => "Invalid \x5cuXXXX escape"
  | .textBehind => "Extra data"
  | .byteOrderMark => "Unexpected UTF-8 BOM (decode using utf-8-sig)"

/-- A flaw with its place: the line and the column, both from one on, and the number of symbols in front.
-/
structure SyntaxError where
  flaw : SyntaxFlaw
  line : Nat
  column : Nat
  offset : Nat
deriving DecidableEq, Repr

/-- The flaw of a text at the place where some rest of it starts. -/
def SyntaxFlaw.placed (flaw : SyntaxFlaw) (text : String) (rest : List Char) : SyntaxError :=
  let cs := text.toList
  let front := symbols (cs.take (cs.length - rest.length))
  let lastLine := front.reverse.takeWhile (· != .char '\n')
  { flaw, line := front.count (.char '\n') + 1, column := lastLine.length + 1, offset := front.length }

/-- The message about a flaw and its place. -/
def SyntaxError.message (e : SyntaxError) : String :=
  e.flaw.description ++ ": line " ++ toString e.line ++ " column " ++ toString e.column ++ " (char " ++
    toString e.offset ++ ")"

/-! ## Reading -/

/-- Why a text has no value; a malformed text is given from the flaw on. -/
inductive ReadFault
  | malformed (flaw : SyntaxFlaw) (rest : List Char)
  | numeralTooLong
  | nestedTooDeep
deriving DecidableEq, Repr

/-- A result of reading with the text behind it. -/
abbrev Reading (α : Type) : Type := Except ReadFault (α × List Char)

/-- The four white-space characters of the format. -/
def isGap (c : Char) : Bool :=
  c == ' ' || c == '\t' || c == '\n' || c == '\r'

/-- The text behind white space. -/
def skipGap (cs : List Char) : List Char :=
  cs.dropWhile isGap

/-! ## Strings -/

/-- The value of a digit in base sixteen. -/
def hexValue? (c : Char) : Option Nat :=
  if '0' ≤ c ∧ c ≤ '9' then some (c.toNat - 0x30)
  else if 'a' ≤ c ∧ c ≤ 'f' then some (c.toNat - 0x57)
  else if 'A' ≤ c ∧ c ≤ 'F' then some (c.toNat - 0x37)
  else none

/-- The number that four digits in base sixteen write. -/
def hexUnit? (a b c d : Char) : Option Nat := do
  let w ← hexValue? a
  let x ← hexValue? b
  let y ← hexValue? c
  let z ← hexValue? d
  return 4096 * w + 256 * x + 16 * y + z

/-- The character that a one-letter escape stands for. -/
def escapedChar? : Char → Option Char
  | '\x22' => some '\x22'
  | '\x5c' => some '\x5c'
  | '/' => some '/'
  | 'b' => some '\x08'
  | 'f' => some '\x0c'
  | 'n' => some '\n'
  | 'r' => some '\r'
  | 't' => some '\t'
  | _ => none

/-- The character of a pair of surrogate units. -/
def pairChar? (high low : Nat) : Option Char :=
  if 0xD800 ≤ high ∧ high < 0xDC00 ∧ 0xDC00 ≤ low ∧ low < 0xE000 then
    some (Char.ofNat (0x10000 + (high - 0xD800) * 0x400 + (low - 0xDC00)))
  else none

/-- The characters that hold a symbol in front of others, all last first. -/
def pushSymbol (s : Symbol) (read : List Char) : List Char := s.held.reverse ++ read

/-- The rest of a string after its opening quote, which `text` starts with; `read` holds the characters so
far, last first. Only an escape is held anew: what the text holds as itself it holds already. A unit counts
only if something follows its digits. -/
def readChars (text read : List Char) : List Char → Reading String
  | '\x22' :: rest => .ok (String.ofList read.reverse, rest)
  | '\x5c' :: 'u' :: a :: b :: c :: d :: '\x5c' :: 'u' :: e :: f :: g :: h :: next :: rest =>
    match hexUnit? a b c d with
    | none => .error (.malformed .unknownUnit
        ('u' :: a :: b :: c :: d :: '\x5c' :: 'u' :: e :: f :: g :: h :: next :: rest))
    | some unit =>
      match (hexUnit? e f g h).bind (pairChar? unit) with
      | some pair => readChars text (pushSymbol (.char pair) read) (next :: rest)
      | none =>
        readChars text (pushSymbol (.ofUnit unit) read) ('\x5c' :: 'u' :: e :: f :: g :: h :: next :: rest)
  | '\x5c' :: 'u' :: a :: b :: c :: d :: next :: rest =>
    match hexUnit? a b c d with
    | none => .error (.malformed .unknownUnit ('u' :: a :: b :: c :: d :: next :: rest))
    | some unit => readChars text (pushSymbol (.ofUnit unit) read) (next :: rest)
  | '\x5c' :: 'u' :: rest => .error (.malformed .unknownUnit ('u' :: rest))
  | '\x5c' :: c :: rest =>
    match escapedChar? c with
    | none => .error (.malformed .unknownEscape ('\x5c' :: c :: rest))
    | some escaped => readChars text (escaped :: read) rest
  | c :: rest =>
    if c.toNat < 0x20 then .error (.malformed .controlCharacter (c :: rest))
    else readChars text (c :: read) rest
  | [] => .error (.malformed .stringOpen text)

/-! ## Numbers -/

/-- The number that ASCII digits write in base ten. -/
def asciiValue (digits : List Char) : Nat :=
  digits.foldl (fun n c => 10 * n + (c.toNat - 0x30)) 0

/-- The fraction digits after a point; without one digit at least, the point is not part of the number.
-/
def readFraction (cs : List Char) : Option (List Char) × List Char :=
  match cs with
  | '.' :: rest =>
    match rest.takeWhile Char.isDigit with
    | [] => (none, cs)
    | digits => (some digits, rest.dropWhile Char.isDigit)
  | _ => (none, cs)

/-- The exponent after its mark; without one digit at least, the mark is not part of the number. -/
def readExponent (cs : List Char) : Option Int × List Char :=
  let signed := fun (negative : Bool) (rest : List Char) =>
    match rest.takeWhile Char.isDigit with
    | [] => (none, cs)
    | digits =>
      let power : Int := asciiValue digits
      (some (if negative then -power else power), rest.dropWhile Char.isDigit)
  match cs with
  | e :: rest =>
    if e = 'e' ∨ e = 'E' then
      match rest with
      | '-' :: more => signed true more
      | '+' :: more => signed false more
      | _ => signed false rest
    else (none, cs)
  | [] => (none, cs)

/-- The sign of a number, and what stands behind it. -/
def readSign : List Char → Bool × List Char
  | '-' :: rest => (true, rest)
  | cs => (false, cs)

/-- The digits in front of a text that write a whole number; behind a zero there are no others. -/
def wholeDigits : List Char → List Char
  | '0' :: _ => ['0']
  | cs => cs.takeWhile Char.isDigit

/-- A number: whole if it has neither a fraction nor an exponent. -/
def readNumber (text : List Char) : Reading Value :=
  let (negative, cs) := readSign text
  let whole := wholeDigits cs
  let rest := cs.drop whole.length
  if whole.isEmpty then .error (.malformed .noValue text)
  else
    let (fraction, rest) := readFraction rest
    let (power, rest) := readExponent rest
    if fraction.isNone && power.isNone then
      if maxNumeralDigits < whole.length then .error .numeralTooLong
      else
        let n : Int := asciiValue whole
        .ok (.int (if negative then -n else n), rest)
    else
      let places := fraction.getD []
      let digits := asciiValue (whole ++ places)
      .ok (.float (Double.ofDecimal negative digits (power.getD 0 - places.length)), rest)

/-! ## Values -/

/-- Words with a value of their own. -/
def wordValues : List (String × Value) :=
  [("null", .null), ("true", .bool true), ("false", .bool false), ("NaN", .float .nan),
    ("Infinity", .float (.infinite false)), ("-Infinity", .float (.infinite true))]

/-- A word with a value of its own, in front of the text. -/
def readWord? (cs : List Char) : Option (Value × List Char) :=
  wordValues.findSome? fun (word, value) => (afterStart? word.toList cs).map (value, ·)

/-- The name of a field with the colon after it. -/
def readName (cs : List Char) : Reading String :=
  match cs with
  | '\x22' :: rest =>
    match readChars cs [] rest with
    | .error fault => .error fault
    | .ok (name, rest) =>
      match skipGap rest with
      | ':' :: rest => .ok (name, skipGap rest)
      | rest => .error (.malformed .noColon rest)
  | _ => .error (.malformed .noName cs)

/-- How many lists and objects may stand one inside the other. -/
def maxNesting : Nat := 990

mutual
/-- A value in front of the text; `fuel` bounds the steps, and `depth` the lists and objects inside one
another. -/
def readValue : Nat → Nat → List Char → Reading Value
  | 0, _, cs => .error (.malformed .noValue cs)
  | fuel + 1, depth, cs =>
    match cs with
    | '\x22' :: rest => (readChars cs [] rest).map fun (s, rest) => (.string s, rest)
    | '[' :: rest =>
      match depth, skipGap rest with
      | 0, _ => .error .nestedTooDeep
      | _ + 1, ']' :: rest => .ok (.array [], rest)
      | depth + 1, rest => readItems fuel depth [] rest
    | '\x7b' :: rest =>
      match depth, skipGap rest with
      | 0, _ => .error .nestedTooDeep
      | _ + 1, '\x7d' :: rest => .ok (.object [], rest)
      | depth + 1, rest => readFields fuel depth [] rest
    | _ =>
      match readWord? cs with
      | some found => .ok found
      | none => readNumber cs
/-- The items of a list from one item on; `read` holds those before it, last first. -/
def readItems : Nat → Nat → List Value → List Char → Reading Value
  | 0, _, _, cs => .error (.malformed .noValue cs)
  | fuel + 1, depth, read, cs =>
    match readValue fuel depth cs with
    | .error fault => .error fault
    | .ok (item, rest) =>
      match skipGap rest with
      | ',' :: rest => readItems fuel depth (item :: read) (skipGap rest)
      | ']' :: rest => .ok (.array (item :: read).reverse, rest)
      | rest => .error (.malformed .noComma rest)
/-- The fields of an object from one name on; `read` holds those before it. -/
def readFields : Nat → Nat → List (String × Value) → List Char → Reading Value
  | 0, _, _, cs => .error (.malformed .noName cs)
  | fuel + 1, depth, read, cs =>
    match readName cs with
    | .error fault => .error fault
    | .ok (name, rest) =>
      match readValue fuel depth rest with
      | .error fault => .error fault
      | .ok (value, rest) =>
        match skipGap rest with
        | ',' :: rest => readFields fuel depth (setField name value read) (skipGap rest)
        | '\x7d' :: rest => .ok (.object (setField name value read), rest)
        | rest => .error (.malformed .noComma rest)
end

/-- The mark of the byte order; it is no part of a text. -/
def byteOrderMark : Char := Char.ofNat 0xFEFF

/-- The value that a whole text writes. Of two steps in a row one reads a character, so twice the length
of the text bounds them. -/
def ofText (text : String) : Except ReadFault Value :=
  if text.toList.head? = some byteOrderMark then .error (.malformed .byteOrderMark text.toList)
  else
    let cs := skipGap text.toList
    match readValue (2 * cs.length + 2) maxNesting cs with
    | .error fault => .error fault
    | .ok (value, rest) =>
      match skipGap rest with
      | [] => .ok value
      | behind => .error (.malformed .textBehind behind)

end TensorBridge.Value
