import TensorBridge.Text.Lines

/-!
# Words and letter case

An identifier is a row of words: ASCII letters and digits, parted by any other characters and by changes
of case. Two cuts are made one after the other: between a small letter or digit and a capital, and then
in front of the last capital of a run of capitals that goes on with a small letter. The words in small
letters can be joined again with underscores or with capitals.
-/

namespace TensorBridge

/-- Puts a space between a small letter or digit and the capital after it. -/
def cutCamel : List Char → List Char
  | a :: b :: rest =>
    if (a.isLower || a.isDigit) && b.isUpper then a :: ' ' :: b :: cutCamel rest else a :: cutCamel (b :: rest)
  | short => short

/-- Puts a space in front of a capital that stands between a capital and a small letter. -/
def cutAcronym : List Char → List Char
  | a :: b :: c :: rest =>
    if a.isUpper && b.isUpper && c.isLower then a :: ' ' :: b :: c :: cutAcronym rest
    else a :: cutAcronym (b :: c :: rest)
  | short => short

/-- The pieces of a text between the characters that are no ASCII letter or digit; some may be empty. -/
def splitRuns : List Char → List (List Char)
  | [] => [[]]
  | c :: rest => if c.isAlphanum then consLine c (splitRuns rest) else [] :: splitRuns rest

/-- The words of a text in small letters, as lists of characters. -/
def wordChars (cs : List Char) : List (List Char) :=
  ((splitRuns (cutAcronym (cutCamel cs))).filter (!·.isEmpty)).map (·.map Char.toLower)

/-- The words of a text in small letters. -/
def words (text : String) : List String :=
  (wordChars text.toList).map String.ofList

/-- A word with its first letter as a capital. -/
def capitalWord : List Char → List Char
  | [] => []
  | c :: rest => c.toUpper :: rest

/-- The words in small letters with underscores between them. -/
def snakeCase (text : String) : String :=
  String.intercalate "_" (words text)

/-- The words without separators, each with a capital in front. -/
def pascalCase (text : String) : String :=
  String.ofList ((wordChars text.toList).flatMap capitalWord)

/-- The words without separators, all but the first with a capital in front. -/
def camelCase (text : String) : String :=
  match wordChars text.toList with
  | [] => ""
  | first :: rest => String.ofList (first ++ rest.flatMap capitalWord)

end TensorBridge
