/-!
# The start of a text

Whether a text starts with a given one, and what follows then.
-/

namespace TensorBridge

/-- What follows a given start of a text, if the text has that start. -/
def afterStart? : List Char → List Char → Option (List Char)
  | [], cs => some cs
  | _ :: _, [] => none
  | s :: start, c :: cs => if s = c then afterStart? start cs else none

/-- A start is found exactly where the text is that start and the rest. -/
theorem afterStart?_eq_some_iff {start cs rest : List Char} :
    afterStart? start cs = some rest ↔ cs = start ++ rest := by
  induction start generalizing cs with
  | nil => simp [afterStart?, eq_comm]
  | cons s start ih =>
    cases cs with
    | nil => simp [afterStart?]
    | cons c cs =>
      by_cases h : s = c
      · subst h; simp [afterStart?, ih]
      · simp [afterStart?, h, Ne.symm h]

end TensorBridge
