import TensorBridge.Text.Lines
import TensorBridge.Text.Quoted
import TensorBridge.Value.Basic

/-!
# Writing data files

JSON text of a value in ASCII: any other character is escaped by its UTF-16 units. Lists and objects
that are not empty have each entry on a line of its own, two spaces further in.
-/

namespace TensorBridge.Value

/-- One UTF-16 unit as an escape. -/
def escapeUnit (n : Nat) : List Char :=
  '\x5c' :: 'u' :: hexDigits 4 n

/-- One character of a string. -/
def writeChar (c : Char) : List Char :=
  match c with
  | '\x22' => ['\x5c', '\x22']
  | '\x5c' => ['\x5c', '\x5c']
  | '\n' => ['\x5c', 'n']
  | '\r' => ['\x5c', 'r']
  | '\t' => ['\x5c', 't']
  | '\x08' => ['\x5c', 'b']
  | '\x0c' => ['\x5c', 'f']
  | _ =>
    let n := c.toNat
    if 0x20 ≤ n ∧ n < 0x7F then [c]
    else if n < 0x10000 then escapeUnit n
    else escapeUnit (0xD800 + (n - 0x10000) / 0x400) ++ escapeUnit (0xDC00 + (n - 0x10000) % 0x400)

/-- One symbol of a string. -/
def writeSymbol : Symbol → List Char
  | .char c => writeChar c
  | .half index => escapeUnit (Symbol.unit index)

/-- A string between double quotes. -/
def writeString (s : String) : String :=
  String.ofList ('\x22' :: (symbols s.toList).flatMap writeSymbol ++ ['\x22'])

/-- A number of double precision; those that are not finite have words. -/
def writeDouble (x : Double) : String :=
  match x with
  | .nan => "NaN"
  | .infinite negative => if negative then "-Infinity" else "Infinity"
  | _ => x.text

/-- Entries between brackets, each on a line of its own one step further in than the brackets. -/
def block (level : Nat) (opening : String) (entries : List String) (closing : String) : String :=
  let gap := "\n" ++ spaces (2 * level)
  opening ++ gap ++ "  " ++ String.intercalate ("," ++ gap ++ "  ") entries ++ gap ++ closing

mutual
/-- A value that starts `level` steps in. -/
def write (level : Nat) : Value → String
  | .null => "null"
  | .bool true => "true"
  | .bool false => "false"
  | .int n => toString n
  | .float x => writeDouble x
  | .string s => writeString s
  | .array [] => "[]"
  | .array (item :: rest) => block level "[" (write (level + 1) item :: writeItems (level + 1) rest) "]"
  | .object [] => "\x7b\x7d"
  | .object ((name, value) :: rest) =>
    let first := writeString name ++ ": " ++ write (level + 1) value
    block level "\x7b" (first :: writeFields (level + 1) rest) "\x7d"
/-- The items of a list. -/
def writeItems (level : Nat) : List Value → List String
  | [] => []
  | item :: rest => write level item :: writeItems level rest
/-- The fields of an object. -/
def writeFields (level : Nat) : List (String × Value) → List String
  | [] => []
  | (name, value) :: rest => (writeString name ++ ": " ++ write level value) :: writeFields level rest
end

end TensorBridge.Value
