import TensorBridge.Text.Graphic
import TensorBridge.Text.Half

/-!
# Quoted text

Text between quotes, for messages. A single quote delimits unless the text holds single quotes and no
double quote. The delimiter and the backslash are escaped, and so is every character that does not show
as itself. In text without quotes, only halves of surrogate pairs may have to be escaped.
-/

namespace TensorBridge

/-- The last `width` digits of a number in base sixteen, small letters. -/
def hexDigits : Nat → Nat → List Char
  | 0, _ => []
  | width + 1, n => hexDigits width (n / 16) ++ [Nat.digitChar (n % 16)]

/-- A character that does not show as itself, by its code point in two, four or eight digits. -/
def escapeCode (n : Nat) : List Char :=
  if n < 0x100 then '\x5c' :: 'x' :: hexDigits 2 n
  else if n < 0x10000 then '\x5c' :: 'u' :: hexDigits 4 n
  else '\x5c' :: 'U' :: hexDigits 8 n

/-- One symbol of a quoted text. -/
def quoteSymbol (delimiter : Char) : Symbol → List Char
  | .half index => escapeCode (Symbol.unit index)
  | .char c =>
    if c = delimiter ∨ c = '\x5c' then ['\x5c', c]
    else if c = '\n' then ['\x5c', 'n']
    else if c = '\r' then ['\x5c', 'r']
    else if c = '\t' then ['\x5c', 't']
    else if isGraphic c then [c]
    else escapeCode c.toNat

/-- The quote that a text is put between. -/
def quoteDelimiter (cs : List Char) : Char :=
  if cs.contains '\x27' && !cs.contains '\x22' then '\x22' else '\x27'

/-- A text between quotes. -/
def quoted (s : String) : String :=
  let delimiter := quoteDelimiter s.toList
  String.ofList (delimiter :: (symbols s.toList).flatMap (quoteSymbol delimiter) ++ [delimiter])

/-- A text with its halves of surrogate pairs escaped. -/
def escapeHalves (s : String) : String :=
  String.ofList <| (symbols s.toList).flatMap fun
    | .half index => escapeCode (Symbol.unit index)
    | symbol => symbol.held

end TensorBridge
