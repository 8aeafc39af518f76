import TensorBridge.Cpp.Tree

/-!
# C++ text

How trees are written. An expression is one piece of text. A statement is written at a level of
indentation, in some lines; the statements of a block are written one level further in than the block. A
branch that only stops the loop fills one line.
-/

namespace TensorBridge

/-- Some characters with others in the place of each `old`. -/
def replaceEach (old : Char) (new cs : List Char) : List Char :=
  cs.flatMap fun c => if c = old then new else [c]

/-- What holds for the new characters and for those before holds for all that are there afterwards. -/
theorem forall_mem_replaceEach {P : Char → Prop} {old : Char} {new cs : List Char} (hnew : ∀ c ∈ new, P c)
    (hcs : ∀ c ∈ cs, P c) : ∀ c ∈ replaceEach old new cs, P c := by
  intro c hc
  obtain ⟨d, hd, hc⟩ := List.mem_flatMap.mp hc
  split at hc
  · exact hnew c hc
  · exact List.mem_singleton.mp hc ▸ hcs d hd

/-- Without the character nothing is replaced. -/
theorem replaceEach_of_not_mem {old : Char} {new cs : List Char} (h : old ∉ cs) : replaceEach old new cs = cs := by
  induction cs with
  | nil => rfl
  | cons c rest ih =>
    obtain ⟨hne, hrest⟩ := not_or.mp (mt List.mem_cons.mpr h)
    rw [replaceEach, List.flatMap_cons, if_neg (Ne.symm hne), List.singleton_append]
    exact congrArg (c :: ·) (ih hrest)

/-- The inside of a string literal: first every backslash is doubled, then every quote gets a backslash in
front. -/
def escaped (cs : List Char) : List Char :=
  replaceEach '\x22' ['\x5c', '\x22'] (replaceEach '\x5c' ['\x5c', '\x5c'] cs)

/-- A string literal. -/
def stringLiteral (s : String) : String :=
  String.ofList ('\x22' :: escaped s.toList ++ ['\x22'])

namespace Expr

mutual
/-- The text of an expression. -/
def text : Expr → String
  | .name t => t
  | .int n => toString n
  | .float x => x.text
  | .string s => stringLiteral s
  | .call function args => text function ++ "(" ++ commaList (texts args) ++ ")"
  | .method base arrow called args =>
    text base ++ (if arrow then "->" else ".") ++ called ++ "(" ++ commaList (texts args) ++ ")"
  | .member base field => text base ++ "." ++ field
  | .subscript base index => text base ++ "[" ++ text index ++ "]"
  | .element base container index valueType => text base ++ container.access (texts index) valueType
  | .binary operator left right => text left ++ " " ++ operator ++ " " ++ text right
  | .address target => "&" ++ text target
  | .initializer [] => "\x7b\x7d"
  | .initializer (item :: rest) => "\x7b " ++ commaList (text item :: texts rest) ++ " \x7d"
/-- The texts of some expressions. -/
def texts : List Expr → List String
  | [] => []
  | e :: rest => text e :: texts rest
end

end Expr

/-- The spaces of one step of indentation. -/
def indentWidth : Nat := 2

/-- The spaces in front of a line at a level; there are none at a negative one. -/
def pad (level : Int) : String := spaces (indentWidth * level.toNat)

namespace Stmt

/-- The text of a declaration. -/
def declaration (constant array : Bool) (type name : String) (args : List Expr) (init : Option Expr) : String :=
  (if constant then "const " else "") ++ type ++ " " ++ name ++ (if array then "[]" else "") ++
    (if args.isEmpty then "" else "(" ++ commaList (Expr.texts args) ++ ")") ++
    (match init with
      | none => ""
      | some value => " = " ++ value.text) ++ ";"

/-- The head of a counting loop. -/
def loopHead (var : String) (bound : Expr) : String :=
  "for (int " ++ var ++ " = 0; " ++ var ++ " < " ++ bound.text ++ "; " ++ var ++ "++) \x7b"

/-- Whether a block does nothing but stop the loop. -/
def isLoneStop : List Stmt → Bool
  | [.stop] => true
  | _ => false

mutual
/-- The lines of a statement at a level. -/
def lines (level : Int) : Stmt → List String
  | .declare constant array type name args init => [pad level ++ declaration constant array type name args init]
  | .assign target value => [pad level ++ (target.text ++ " = " ++ value.text ++ ";")]
  | .eval expr => [pad level ++ (expr.text ++ ";")]
  | .stop => [pad level ++ "break;"]
  | .loop var bound body =>
    (pad level ++ loopHead var bound) :: allLines (level + 1) body ++ [pad level ++ "\x7d"]
  | .branch cond body orElse =>
    let head := pad level ++ ("if (" ++ cond.text ++ ") \x7b")
    if orElse.isEmpty && isLoneStop body then [head ++ " break; \x7d"]
    else
      head :: allLines (level + 1) body ++
        (if orElse.isEmpty then [] else (pad level ++ "\x7d else \x7b") :: allLines (level + 1) orElse) ++
        [pad level ++ "\x7d"]
  | .scope body => (pad level ++ "\x7b") :: allLines (level + 1) body ++ [pad level ++ "\x7d"]
/-- The lines of statements one after the other, all at one level. -/
def allLines (level : Int) : List Stmt → List String
  | [] => []
  | s :: rest => lines level s ++ allLines level rest
end

end Stmt

/-- The text of statements. -/
def stmtText (stmts : List Stmt) : String :=
  unlines (Stmt.allLines 0 stmts)

end TensorBridge
