/-!
# Blank characters

White space: the characters that the Unicode standard lists as such, together with the four ASCII
information separators. `trim` removes it from both ends of a text.
-/

namespace TensorBridge

/-- White space of every script. -/
def isBlank (c : Char) : Bool :=
  let n := c.toNat
  (0x09 ≤ n && n ≤ 0x0D) || (0x1C ≤ n && n ≤ 0x20) || n == 0x85 || n == 0xA0 || n == 0x1680 ||
    (0x2000 ≤ n && n ≤ 0x200A) || n == 0x2028 || n == 0x2029 || n == 0x202F || n == 0x205F || n == 0x3000

/-- The characters from the first to the last one that is not blank. -/
def trimChars (cs : List Char) : List Char :=
  ((cs.dropWhile isBlank).reverse.dropWhile isBlank).reverse

/-- A text without the white space at its two ends. -/
def trim (s : String) : String :=
  String.ofList (trimChars s.toList)

/-- A text less one line break at its end, if there is one, and whether there was. -/
def splitFinalBreak (cs : List Char) : List Char × Bool :=
  match cs.reverse with
  | '\n' :: front => (front.reverse, true)
  | _ => (cs, false)

/-- The line break that is split off stood at the end. -/
theorem splitFinalBreak_append (cs : List Char) :
    (splitFinalBreak cs).1 ++ (if (splitFinalBreak cs).2 then ['\n'] else []) = cs := by
  unfold splitFinalBreak
  split
  · next front h => simpa using (congrArg List.reverse h).symm
  · simp

end TensorBridge
