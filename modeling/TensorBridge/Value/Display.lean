import TensorBridge.Text.Lines
import TensorBridge.Text.Quoted
import TensorBridge.Value.Basic

/-!
# Values in messages

How a message shows a value. A text that is the whole value stands as it is; inside a list or an object
it is quoted. Whole numbers are in decimal, fractional ones in the fewest digits that read back.
-/

namespace TensorBridge.Value

mutual
/-- A value in the spelling that it has inside other values. -/
def literal : Value → String
  | .null => "None"
  | .bool true => "True"
  | .bool false => "False"
  | .int n => toString n
  | .float x => x.text
  | .string s => quoted s
  | .array items => "[" ++ commaList (literals items) ++ "]"
  | .object fields => "\x7b" ++ commaList (fieldLiterals fields) ++ "\x7d"
/-- The items of a list. -/
def literals : List Value → List String
  | [] => []
  | item :: rest => literal item :: literals rest
/-- The fields of an object, name and value parted by a colon. -/
def fieldLiterals : List (String × Value) → List String
  | [] => []
  | (name, value) :: rest => (quoted name ++ ": " ++ literal value) :: fieldLiterals rest
end

/-- A value as a message shows it. -/
def display : Value → String
  | .string s => s
  | value => literal value

end TensorBridge.Value
