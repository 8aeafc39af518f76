import TensorBridge.Text.Blank

/-!
# Lines and indentation

A text breaks into lines at every character that ends a line: the line feed, the carriage return (with a
line feed after it they count as one), the vertical tab, the form feed, three of the information
separators, and the separators beyond ASCII. A line keeps the separator that ends it, so the lines of a
text concatenate to the text. Indentation puts blanks in front of every line that shows something. A
file is read with a line feed in place of every break of the common systems.
-/

namespace TensorBridge

/-- Characters that end a line. -/
def isLineEnd (c : Char) : Bool :=
  let n := c.toNat
  (0x0A ≤ n && n ≤ 0x0D) || (0x1C ≤ n && n ≤ 0x1E) || n == 0x85 || n == 0x2028 || n == 0x2029

/-- Puts a character in front of the first line. -/
def consLine (c : Char) : List (List Char) → List (List Char)
  | [] => [[c]]
  | line :: rest => (c :: line) :: rest

/-- The lines of a text, each with the separator that ends it. -/
def splitLines : List Char → List (List Char)
  | [] => []
  | '\r' :: '\n' :: rest => ['\r', '\n'] :: splitLines rest
  | c :: rest => if isLineEnd c then [c] :: splitLines rest else consLine c (splitLines rest)

/-- A character in front of the first line is in front of the whole. -/
theorem flatten_consLine (c : Char) (lines : List (List Char)) :
    (consLine c lines).flatten = c :: lines.flatten := by
  cases lines <;> simp [consLine]

/-- The lines make up the text. -/
theorem flatten_splitLines (cs : List Char) : (splitLines cs).flatten = cs := by
  fun_induction splitLines cs with
  | case1 => rfl
  | case2 rest ih => simp [ih]
  | case3 c rest _ _ ih => simp [ih]
  | case4 c rest _ _ ih => simp [flatten_consLine, ih]

/-- Characters with a line feed for each carriage return, and one for a carriage return and a line feed. -/
def lineFeeds : List Char → List Char
  | [] => []
  | '\r' :: '\n' :: rest => '\n' :: lineFeeds rest
  | c :: rest => (if c = '\r' then '\n' else c) :: lineFeeds rest

/-- The text that a file with some content is read as. -/
def withLineFeeds (content : String) : String :=
  String.ofList (lineFeeds content.toList)

/-- A run of `n` spaces. -/
def spaces (n : Nat) : String :=
  String.ofList (List.replicate n ' ')

/-- A line with `n` spaces in front, unless it is blank. -/
def indentLine (n : Nat) (line : List Char) : List Char :=
  if line.all isBlank then line else List.replicate n ' ' ++ line

/-- A text with `n` spaces in front of each of its lines that is not blank. -/
def indent (n : Nat) (text : String) : String :=
  String.ofList ((splitLines text.toList).flatMap (indentLine n))

/-- The texts as the items of a list: a comma and a space stand between neighbours. -/
def commaList (items : List String) : String :=
  String.intercalate ", " items

/-- The texts on lines of their own. -/
def unlines (lines : List String) : String :=
  String.intercalate "\n" lines

end TensorBridge
