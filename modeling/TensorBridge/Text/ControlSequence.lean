/-!
# Control sequences

A terminal takes some texts for instructions: the escape character with an opening bracket, any number
of digits, semicolons and question marks, and a letter. Output that does not go to a terminal is written
without them.
-/

namespace TensorBridge

/-- Characters between the bracket and the letter of a control sequence. -/
def isParameter (c : Char) : Bool :=
  c.isDigit || c == ';' || c == '?'

/-- The length of the control sequence that a text starts with; zero if it starts with none. -/
def controlLength : List Char → Nat
  | '\x1b' :: '[' :: rest =>
    let parameters := rest.takeWhile isParameter
    match rest.drop parameters.length with
    | c :: _ => if c.isAlpha then parameters.length + 3 else 0
    | [] => 0
  | _ => 0

/-- A text without its control sequences, and without its first `skipped` characters. -/
def dropControl : Nat → List Char → List Char
  | _, [] => []
  | skipped + 1, _ :: rest => dropControl skipped rest
  | 0, c :: rest =>
    match controlLength (c :: rest) with
    | 0 => c :: dropControl 0 rest
    | length + 1 => dropControl length rest

/-- A text as it shows outside a terminal. -/
def withoutControl (s : String) : String :=
  String.ofList (dropControl 0 s.toList)

/-- A text without the escape character stays as it is. -/
theorem dropControl_of_not_mem {cs : List Char} (h : '\x1b' ∉ cs) : dropControl 0 cs = cs := by
  induction cs with
  | nil => rfl
  | cons c rest ih =>
    have none : controlLength (c :: rest) = 0 := by
      unfold controlLength
      split
      · next hstart => simp_all
      · rfl
    simp only [dropControl, none]
    rw [ih fun inside => h (List.mem_cons_of_mem c inside)]

end TensorBridge
