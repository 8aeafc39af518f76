import TensorBridge.Kernel.Source
import TensorBridge.Proofs.Cpp.Parts
import TensorBridge.Proofs.Text.Lines

/-!
# Indentation of printed statements

The printer passes its level on to the statements of a block, one step further in, so a line is set in by the level of
the whole and by one step for each body of a loop, a branch or a scope around it. Statements can be printed some steps
in, or they can be printed at the margin and the text be indented as a whole, which leaves blank lines out and breaks
lines wherever a character ends one. The two agree, because no printed line is blank and none breaks inside, if the
texts that the tree is made of do not.
-/

namespace TensorBridge

/-! ## The texts in a tree -/

/-- The text that an expression adds to those of its parts. -/
def Expr.ownText? : Expr → Option String
  | .name text => some text
  | .string value => some value
  | .method _ _ called _ => some called
  | .member _ field => some field
  | .element _ _ _ valueType => some valueType
  | .binary operator _ _ => some operator
  | _ => none

/-- The texts that an expression is made of. -/
def Expr.leafTexts (e : Expr) : List String := e.parts.filterMap ownText?

mutual
/-- The texts that a statement is made of: types and names of declarations, variables of loops, and the texts in
expressions. -/
def Stmt.leafTexts : Stmt → List String
  | .declare _ _ type name args init => type :: name :: (args ++ init.toList).flatMap Expr.leafTexts
  | .assign target value => target.leafTexts ++ value.leafTexts
  | .eval e => e.leafTexts
  | .stop => []
  | .loop var bound body => var :: bound.leafTexts ++ allLeafTexts body
  | .branch cond body orElse => cond.leafTexts ++ allLeafTexts body ++ allLeafTexts orElse
  | .scope body => allLeafTexts body
/-- The texts that some statements are made of. -/
def Stmt.allLeafTexts : List Stmt → List String
  | [] => []
  | s :: rest => leafTexts s ++ allLeafTexts rest
end

/-- An expression all of whose texts are one line. -/
abbrev Expr.IsOneLine (e : Expr) : Prop := e.Every fun part => ∀ text ∈ part.ownText?, TensorBridge.IsOneLine text

/-- The texts of an expression are those that its parts add. -/
theorem Expr.forall_mem_leafTexts {e : Expr} : (∀ text ∈ e.leafTexts, TensorBridge.IsOneLine text) ↔ e.IsOneLine := by
  simp only [leafTexts, List.mem_filterMap, IsOneLine, Every, Option.mem_def]
  constructor
  · intro h part hpart text htext
    exact h text ⟨part, hpart, htext⟩
  · intro h text htext
    obtain ⟨part, hpart, htext⟩ := htext
    exact h part hpart text htext

/-! ## Lines that show something -/

/-- A literal has the characters of its value, and backslashes and quotes. -/
theorem isOneLine_stringLiteral {s : String} (h : IsOneLine s) : IsOneLine (stringLiteral s) := by
  have hpair : ∀ last, isLineEnd last = false → ∀ c ∈ ['\x5c', last], isLineEnd c = false :=
    fun _ hlast => List.forall_mem_cons.mpr ⟨rfl, List.forall_mem_singleton.mpr hlast⟩
  have hdoubled : ∀ c ∈ replaceEach '\x5c' ['\x5c', '\x5c'] s.toList, isLineEnd c = false :=
    forall_mem_replaceEach (hpair '\x5c' rfl) h
  have hbody : ∀ c ∈ escaped s.toList, isLineEnd c = false := forall_mem_replaceEach (hpair '\x22' rfl) hdoubled
  rw [IsOneLine, stringLiteral, String.toList_ofList, List.cons_append, List.forall_mem_cons, List.forall_mem_append]
  exact ⟨rfl, hbody, List.forall_mem_singleton.mpr rfl⟩

/-- The access to an element is one line. -/
theorem Container.isOneLine_access (container : Container) {index : List String} {elementType : String}
    (hindex : ∀ item ∈ index, IsOneLine item) (htype : IsOneLine elementType) :
    IsOneLine (container.access index elementType) := by
  have hlist := isOneLine_commaList hindex
  cases container <;> simp +decide only [access, isOneLine_append, hlist, htype]

mutual
/-- An expression is one line if its texts are. -/
theorem Expr.isOneLine_text : ∀ (e : Expr), e.IsOneLine → TensorBridge.IsOneLine e.text
  | .name t, h => every_name.mp h t rfl
  | .int n, _ => isOneLine_int n
  | .float x, _ => x.isOneLine_text
  | .string s, h => isOneLine_stringLiteral (every_string.mp h s rfl)
  | .call function args, h => by
    obtain ⟨_, hfunction, hargs⟩ := every_call.mp h
    have hlist := isOneLine_commaList (isOneLine_texts args hargs)
    simp +decide only [text, isOneLine_append, isOneLine_text function hfunction, hlist]
  | .method base arrow called args, h => by
    obtain ⟨hcalled, hbase, hargs⟩ := every_method.mp h
    have hlist := isOneLine_commaList (isOneLine_texts args hargs)
    have harrow : TensorBridge.IsOneLine (if arrow then "->" else ".") := by cases arrow <;> decide
    simp +decide only [text, isOneLine_append, isOneLine_text base hbase, harrow, hcalled called rfl, hlist]
  | .member base field, h => by
    obtain ⟨hfield, hbase⟩ := every_member.mp h
    simp +decide only [text, isOneLine_append, isOneLine_text base hbase, hfield field rfl]
  | .subscript base index, h => by
    obtain ⟨_, hbase, hindex⟩ := every_subscript.mp h
    simp +decide only [text, isOneLine_append, isOneLine_text base hbase, isOneLine_text index hindex]
  | .element base container index valueType, h => by
    obtain ⟨htype, hbase, hindex⟩ := every_element.mp h
    have haccess := container.isOneLine_access (isOneLine_texts index hindex) (htype valueType rfl)
    exact isOneLine_append.mpr ⟨isOneLine_text base hbase, haccess⟩
  | .binary operator left right, h => by
    obtain ⟨hoperator, hleft, hright⟩ := every_binary.mp h
    simp +decide only [text, isOneLine_append, isOneLine_text left hleft, hoperator operator rfl,
      isOneLine_text right hright]
  | .address target, h => by
    simp +decide only [text, isOneLine_append, isOneLine_text target (every_address.mp h).2]
  | .initializer [], _ => by decide
  | .initializer (item :: rest), h => by
    obtain ⟨hitem, hrest⟩ := List.forall_mem_cons.mp (every_initializer.mp h).2
    have hlist : TensorBridge.IsOneLine (commaList (item.text :: texts rest)) :=
      isOneLine_commaList (List.forall_mem_cons.mpr ⟨isOneLine_text item hitem, isOneLine_texts rest hrest⟩)
    simp +decide only [text, isOneLine_append, hlist]
/-- Expressions are one line each if their texts are. -/
theorem Expr.isOneLine_texts :
    ∀ (es : List Expr), (∀ e ∈ es, e.IsOneLine) → ∀ text ∈ texts es, TensorBridge.IsOneLine text
  | [], _ => List.forall_mem_nil _
  | e :: rest, h => by
    obtain ⟨he, hrest⟩ := List.forall_mem_cons.mp h
    exact List.forall_mem_cons.mpr ⟨isOneLine_text e he, isOneLine_texts rest hrest⟩
end

namespace Stmt

/-- A declaration is one line that shows something. -/
theorem isVisibleLine_declaration (constant array : Bool) {type name : String} {args : List Expr} {init : Option Expr}
    (htype : IsOneLine type) (hname : IsOneLine name) (hargs : ∀ e ∈ args, e.IsOneLine)
    (hinit : ∀ e ∈ init, e.IsOneLine) : IsVisibleLine (declaration constant array type name args init) := by
  have hconstant : IsOneLine (if constant then "const " else "") := by cases constant <;> decide
  have harray : IsOneLine (if array then "[]" else "") := by cases array <;> decide
  have hlist := isOneLine_commaList (Expr.isOneLine_texts args hargs)
  refine isVisibleLine_append ?_ ⟨by decide, ';', by decide⟩
  refine isOneLine_append.mpr ⟨isOneLine_append.mpr ⟨?front, ?args⟩, ?init⟩
  case front => simp +decide only [isOneLine_append, hconstant, htype, hname, harray]
  case args =>
    split
    · decide
    · simp +decide only [isOneLine_append, hlist]
  case init =>
    cases init with
    | none => decide
    | some value => exact isOneLine_append.mpr ⟨by decide, Expr.isOneLine_text value (hinit value rfl)⟩

/-- The head of a loop is one line that shows something. -/
theorem isVisibleLine_loopHead {var : String} {bound : Expr} (hvar : IsOneLine var) (hbound : bound.IsOneLine) :
    IsVisibleLine (loopHead var bound) := by
  refine isVisibleLine_append ?_ ⟨by decide, '\x7b', by decide⟩
  simp +decide only [isOneLine_append, hvar, Expr.isOneLine_text bound hbound]

/-- The head of a branch is one line that shows something. -/
theorem isVisibleLine_branchHead {cond : Expr} (hcond : cond.IsOneLine) :
    IsVisibleLine ("if (" ++ cond.text ++ ") \x7b") := by
  refine isVisibleLine_append ?_ ⟨by decide, '\x7b', by decide⟩
  simp +decide only [isOneLine_append, Expr.isOneLine_text cond hcond]

/-- A line that shows something does so behind the spaces of a level. -/
theorem isVisibleLine_pad (level : Int) {text : String} (h : IsVisibleLine text) : IsVisibleLine (pad level ++ text) :=
  isVisibleLine_append (isOneLine_spaces _) h

/-- The lines of a block, from its head on, show something if those inside do, and so does its last line. -/
theorem isVisibleLine_block (level : Int) {head : String} {inner : List String} (hhead : IsVisibleLine head)
    (hinner : ∀ line ∈ inner, IsVisibleLine line) :
    ∀ line ∈ head :: inner ++ [pad level ++ "\x7d"], IsVisibleLine line := by
  rw [List.forall_mem_append, List.forall_mem_cons, List.forall_mem_singleton]
  exact ⟨⟨hhead, hinner⟩, isVisibleLine_pad level ⟨by decide, '\x7d', by decide⟩⟩

mutual
/-- Each line of a statement is one line that shows something, if the texts that it is made of are one line. -/
theorem isVisibleLine_lines : ∀ (s : Stmt) (level : Int), (∀ text ∈ s.leafTexts, IsOneLine text) →
    ∀ line ∈ s.lines level, IsVisibleLine line
  | .declare constant array type name args init, level, h => by
    rw [leafTexts, List.forall_mem_cons, List.forall_mem_cons, List.forall_mem_flatMap, List.forall_mem_append] at h
    obtain ⟨htype, hname, hargs, hinit⟩ := h
    refine List.forall_mem_singleton.mpr
      (isVisibleLine_pad level (isVisibleLine_declaration constant array htype hname ?_ ?_))
    · exact fun e he => Expr.forall_mem_leafTexts.mp (hargs e he)
    · exact fun e he => Expr.forall_mem_leafTexts.mp (hinit e (Option.mem_toList.mpr he))
  | .assign target value, level, h => by
    obtain ⟨htarget, hvalue⟩ := List.forall_mem_append.mp h
    refine List.forall_mem_singleton.mpr
      (isVisibleLine_pad level (isVisibleLine_append ?_ ⟨by decide, ';', by decide⟩))
    simp +decide only [isOneLine_append, Expr.isOneLine_text target (Expr.forall_mem_leafTexts.mp htarget),
      Expr.isOneLine_text value (Expr.forall_mem_leafTexts.mp hvalue)]
  | .eval e, level, h =>
    List.forall_mem_singleton.mpr (isVisibleLine_pad level (isVisibleLine_append
      (Expr.isOneLine_text e (Expr.forall_mem_leafTexts.mp h)) ⟨by decide, ';', by decide⟩))
  | .stop, level, _ => List.forall_mem_singleton.mpr (isVisibleLine_pad level ⟨by decide, ';', by decide⟩)
  | .loop var bound body, level, h => by
    obtain ⟨hhead, hbody⟩ := List.forall_mem_append.mp h
    obtain ⟨hvar, hbound⟩ := List.forall_mem_cons.mp hhead
    have hloop := isVisibleLine_loopHead hvar (Expr.forall_mem_leafTexts.mp hbound)
    exact isVisibleLine_block level (isVisibleLine_pad level hloop) (isVisibleLine_allLines body (level + 1) hbody)
  | .branch cond body orElse, level, h => by
    rw [leafTexts, List.forall_mem_append, List.forall_mem_append] at h
    obtain ⟨⟨hcond, hbody⟩, horElse⟩ := h
    have hhead := isVisibleLine_pad level (isVisibleLine_branchHead (Expr.forall_mem_leafTexts.mp hcond))
    unfold lines
    dsimp only
    split
    · exact List.forall_mem_singleton.mpr (isVisibleLine_append hhead.oneLine ⟨by decide, ';', by decide⟩)
    rw [List.cons_append]
    refine isVisibleLine_block level hhead
      (List.forall_mem_append.mpr ⟨isVisibleLine_allLines body (level + 1) hbody, ?_⟩)
    split
    · exact List.forall_mem_nil _
    · exact List.forall_mem_cons.mpr ⟨isVisibleLine_pad level ⟨by decide, '\x7d', by decide⟩,
        isVisibleLine_allLines orElse (level + 1) horElse⟩
  | .scope body, level, h =>
    isVisibleLine_block level (isVisibleLine_pad level ⟨by decide, '\x7b', by decide⟩)
      (isVisibleLine_allLines body (level + 1) h)
/-- Each line of some statements is one line that shows something, if the texts that they are made of are one line. -/
theorem isVisibleLine_allLines : ∀ (stmts : List Stmt) (level : Int), (∀ text ∈ allLeafTexts stmts, IsOneLine text) →
    ∀ line ∈ allLines level stmts, IsVisibleLine line
  | [], _, _ => List.forall_mem_nil _
  | s :: rest, level, h => by
    obtain ⟨hs, hrest⟩ := List.forall_mem_append.mp h
    exact List.forall_mem_append.mpr ⟨isVisibleLine_lines s level hs, isVisibleLine_allLines rest level hrest⟩
end

end Stmt

/-! ## Bodies -/

/-- The bodies of a statement. -/
def Stmt.bodies : Stmt → List (List Stmt)
  | .loop _ _ body => [body]
  | .branch _ body orElse => [body, orElse]
  | .scope body => [body]
  | _ => []

/-- Statements one inside the other: the first one stands among `stmts`, each other one in a body of the one before. -/
inductive IsNest : List Stmt → List Stmt → Prop
  | nil (stmts : List Stmt) : IsNest stmts []
  | cons {stmts body inner : List Stmt} {s : Stmt} (hs : s ∈ stmts) (hbody : body ∈ s.bodies)
    (hinner : IsNest body inner) : IsNest stmts (s :: inner)

/-- A line of some statements, where it stands: the statements in whose bodies it lies, the outermost first, and what it
shows. -/
structure PlacedLine where
  around : List Stmt
  text : String

mutual
/-- The lines of a statement that stands in some bodies. The head and the end of a block do not lie in its body, nor
does a body that only stops a loop have lines of its own. -/
def Stmt.placedLines (around : List Stmt) : Stmt → List PlacedLine
  | .declare constant array type name args init => [⟨around, declaration constant array type name args init⟩]
  | .assign target value => [⟨around, target.text ++ " = " ++ value.text ++ ";"⟩]
  | .eval e => [⟨around, e.text ++ ";"⟩]
  | .stop => [⟨around, "break;"⟩]
  | .loop var bound body =>
    ⟨around, loopHead var bound⟩ :: allPlacedLines (around ++ [.loop var bound body]) body ++ [⟨around, "\x7d"⟩]
  | .branch cond body orElse =>
    let head := "if (" ++ cond.text ++ ") \x7b"
    let inside := around ++ [.branch cond body orElse]
    if orElse.isEmpty && isLoneStop body then [⟨around, head ++ " break; \x7d"⟩]
    else
      ⟨around, head⟩ :: allPlacedLines inside body ++
        (if orElse.isEmpty then [] else ⟨around, "\x7d else \x7b"⟩ :: allPlacedLines inside orElse) ++
        [⟨around, "\x7d"⟩]
  | .scope body => ⟨around, "\x7b"⟩ :: allPlacedLines (around ++ [.scope body]) body ++ [⟨around, "\x7d"⟩]
/-- The lines of some statements that stand in some bodies. -/
def Stmt.allPlacedLines (around : List Stmt) : List Stmt → List PlacedLine
  | [] => []
  | s :: rest => placedLines around s ++ allPlacedLines around rest
end

/-- A line in a text at a level: one step further in for each body around it. -/
def PlacedLine.lineAt (level : Int) (line : PlacedLine) : String := pad (level + line.around.length) ++ line.text

/-- Inside one more body the level is one step further in. -/
theorem level_concat (level : Int) (around : List Stmt) (s : Stmt) :
    level + ((around ++ [s]).length : Int) = level + around.length + 1 := by
  rw [List.length_append, List.length_singleton]
  omega

mutual
/-- The level that is passed on counts the bodies around a line: a statement in some bodies, at the level of the whole
and one step further in for each of them, has the lines of its places. -/
theorem Stmt.lines_eq (level : Int) (around : List Stmt) :
    ∀ s : Stmt, s.lines (level + around.length) = (s.placedLines around).map (PlacedLine.lineAt level)
  | .declare .. => rfl
  | .assign .. => rfl
  | .eval _ => rfl
  | .stop => rfl
  | .loop var bound body => by
    rw [placedLines, lines, List.map_append, List.map_cons, ← allLines_eq level _ body, level_concat]
    rfl
  | .branch cond body orElse => by
    unfold placedLines lines
    dsimp only
    split
    · simp only [List.map_singleton, PlacedLine.lineAt, String.append_assoc]
    rw [List.map_append, List.map_append, List.map_cons, ← allLines_eq level _ body, level_concat]
    split
    · rfl
    · rw [List.map_cons, ← allLines_eq level _ orElse, level_concat]
      rfl
  | .scope body => by
    rw [placedLines, lines, List.map_append, List.map_cons, ← allLines_eq level _ body, level_concat]
    rfl
/-- Statements in some bodies have the lines of their places. -/
theorem Stmt.allLines_eq (level : Int) (around : List Stmt) : ∀ stmts : List Stmt,
    allLines (level + around.length) stmts = (allPlacedLines around stmts).map (PlacedLine.lineAt level)
  | [] => rfl
  | s :: rest => by
    rw [allPlacedLines, allLines, List.map_append, lines_eq level around s, allLines_eq level around rest]
end

/-- A line of a statement's own lies in the bodies around the statement and in no more. -/
theorem PlacedLine.forall_mem_own (around stmts : List Stmt) (text : String) :
    ∀ line ∈ [(⟨around, text⟩ : PlacedLine)], ∃ more, line.around = around ++ more ∧ IsNest stmts more :=
  List.forall_mem_singleton.mpr ⟨[], (List.append_nil _).symm, .nil _⟩

/-- The lines of a block inside some bodies lie in these, and in more if they lie in the block. -/
theorem PlacedLine.forall_mem_block {around : List Stmt} {s : Stmt} {body stmts : List Stmt} {inner : List PlacedLine}
    (hs : s ∈ stmts) (hbody : body ∈ s.bodies)
    (h : ∀ line ∈ inner, ∃ more, line.around = (around ++ [s]) ++ more ∧ IsNest body more) (head : String) :
    ∀ line ∈ (⟨around, head⟩ : PlacedLine) :: inner, ∃ more, line.around = around ++ more ∧ IsNest stmts more := by
  rw [List.forall_mem_cons]
  refine ⟨⟨[], (List.append_nil _).symm, .nil _⟩, fun line hline => ?_⟩
  obtain ⟨more, haround, hmore⟩ := h line hline
  exact ⟨s :: more, by rw [haround, List.append_assoc]; rfl, .cons hs hbody hmore⟩

mutual
/-- The lines of a statement among others lie in the bodies around all of these, and then in bodies one inside the
other. -/
theorem Stmt.isNest_placedLines (around : List Stmt) {stmts : List Stmt} : ∀ s ∈ stmts,
    ∀ line ∈ s.placedLines around, ∃ more, line.around = around ++ more ∧ IsNest stmts more
  | .declare .., _ => PlacedLine.forall_mem_own around stmts _
  | .assign .., _ => PlacedLine.forall_mem_own around stmts _
  | .eval _, _ => PlacedLine.forall_mem_own around stmts _
  | .stop, _ => PlacedLine.forall_mem_own around stmts _
  | .loop var bound body, hs => by
    rw [placedLines, List.forall_mem_append]
    exact ⟨PlacedLine.forall_mem_block hs (List.mem_singleton_self body) (isNest_allPlacedLines _ body fun _ h => h) _,
      PlacedLine.forall_mem_own around stmts _⟩
  | .branch cond body orElse, hs => by
    unfold placedLines
    dsimp only
    split
    · exact PlacedLine.forall_mem_own around stmts _
    rw [List.forall_mem_append, List.forall_mem_append]
    refine ⟨⟨?_, ?_⟩, PlacedLine.forall_mem_own around stmts _⟩
    · exact PlacedLine.forall_mem_block hs List.mem_cons_self (isNest_allPlacedLines _ body fun _ h => h) _
    · split
      · exact List.forall_mem_nil _
      · exact PlacedLine.forall_mem_block hs (List.mem_cons_of_mem _ (List.mem_singleton_self orElse))
          (isNest_allPlacedLines _ orElse fun _ h => h) _
  | .scope body, hs => by
    rw [placedLines, List.forall_mem_append]
    exact ⟨PlacedLine.forall_mem_block hs (List.mem_singleton_self body) (isNest_allPlacedLines _ body fun _ h => h) _,
      PlacedLine.forall_mem_own around stmts _⟩
/-- The lines of some statements among others lie in the bodies around all of these, and then in bodies one inside the
other. -/
theorem Stmt.isNest_allPlacedLines (around : List Stmt) {stmts : List Stmt} : ∀ part : List Stmt, part ⊆ stmts →
    ∀ line ∈ allPlacedLines around part, ∃ more, line.around = around ++ more ∧ IsNest stmts more
  | [], _ => List.forall_mem_nil _
  | s :: rest, h => List.forall_mem_append.mpr
    ⟨isNest_placedLines around s (h List.mem_cons_self),
      isNest_allPlacedLines around rest fun _ hmem => h (List.mem_cons_of_mem s hmem)⟩
end

/-! ## Lines -/

/-- The lines of statements at a level are those of their places. -/
theorem allLines_eq_map (level : Int) (stmts : List Stmt) :
    Stmt.allLines level stmts = (Stmt.allPlacedLines [] stmts).map (PlacedLine.lineAt level) := by
  rw [← Stmt.allLines_eq level []]
  exact congrArg (Stmt.allLines · stmts) (Int.add_zero level).symm

/-- A line in a text that is some steps in has the spaces of these steps in front. -/
theorem PlacedLine.lineAt_eq (level : Nat) (line : PlacedLine) :
    line.lineAt level = spaces (2 * level) ++ line.lineAt 0 := by
  have hlevel : ((level : Int) + (line.around.length : Int)).toNat = level + line.around.length := by omega
  have hzero : ((0 : Int) + (line.around.length : Int)).toNat = line.around.length := by omega
  rw [lineAt, lineAt, pad, pad, hlevel, hzero, indentWidth, Nat.mul_add, spaces_add, String.append_assoc]

/-- The lines of statements some steps in. -/
theorem allLines_eq_map_zero (level : Nat) (stmts : List Stmt) :
    Stmt.allLines level stmts = (Stmt.allLines 0 stmts).map (spaces (2 * level) ++ ·) := by
  rw [allLines_eq_map level, allLines_eq_map 0, List.map_map]
  exact List.map_congr_left fun line _ => line.lineAt_eq level

/-- The lines of statements at the margin lie as far in as there are bodies around them. -/
theorem allLines_zero_eq (stmts : List Stmt) :
    Stmt.allLines 0 stmts =
      (Stmt.allPlacedLines [] stmts).map fun line => spaces (2 * line.around.length) ++ line.text := by
  rw [allLines_eq_map]
  refine List.map_congr_left fun line _ => ?_
  rw [PlacedLine.lineAt, pad, Int.zero_add, Int.toNat_natCast]
  rfl

/-- A section of one piece is this piece, indented. -/
theorem sectionText_singleton (piece : String) (level : Nat) :
    sectionText [piece] level = indent (2 * level) piece := by
  have hpiece : unlines ([piece].filter (!·.isEmpty)) = piece := by
    by_cases hempty : piece.isEmpty = true
    · rw [List.filter_singleton, hempty]
      exact (String.isEmpty_iff.mp hempty).symm
    · rw [List.filter_singleton, Bool.eq_false_iff.mpr hempty]
      exact String.intercalate_singleton
  rw [sectionText, hpiece]
  rfl

/-- Statements whose texts break no line are indented alike by printing them some steps in and by indenting their text:
each line is the line at the margin behind two spaces for each step, and a line at the margin has two spaces for each
body of a loop, a branch or a scope that it lies in, the bodies being one inside the other. -/
theorem indentations_agree (stmts : List Stmt) (h : ∀ text ∈ Stmt.allLeafTexts stmts, IsOneLine text) (level : Nat) :
    Stmt.allLines level stmts = (Stmt.allLines 0 stmts).map (spaces (2 * level) ++ ·) ∧
      sectionText [stmtText stmts] level = unlines (Stmt.allLines level stmts) ∧
      Stmt.allLines 0 stmts =
        (Stmt.allPlacedLines [] stmts).map (fun line => spaces (2 * line.around.length) ++ line.text) ∧
      ∀ line ∈ Stmt.allPlacedLines [] stmts, IsNest stmts line.around := by
  refine ⟨allLines_eq_map_zero level stmts, ?_, allLines_zero_eq stmts, fun line hline => ?_⟩
  · rw [sectionText_singleton, stmtText, indent_unlines _ (Stmt.isVisibleLine_allLines stmts 0 h),
      allLines_eq_map_zero level stmts]
  · obtain ⟨more, haround, hmore⟩ := Stmt.isNest_allPlacedLines [] stmts (fun _ hmem => hmem) line hline
    rwa [haround]

/-- Statements with a block of each kind, and a branch that fills one row. -/
def nestedBlocks : List Stmt :=
  [.loop "i" (.name "n")
    [.branch (.name "done") [.stop] [],
      .branch (.name "odd") [.assign (.name "x") (.string "\"")] [.scope [.eval (.callNamed "f" [])]]]]

/-- The two indentations of a block in a block agree. -/
theorem indentations_agree_nestedBlocks :
    (∀ text ∈ Stmt.allLeafTexts nestedBlocks, IsOneLine text) ∧
      sectionText [stmtText nestedBlocks] 1 = unlines
        ["  for (int i = 0; i < n; i++) \x7b", "    if (done) \x7b break; \x7d", "    if (odd) \x7b",
          "      x = \"\\\"\";", "    \x7d else \x7b", "      \x7b", "        f();", "      \x7d", "    \x7d",
          "  \x7d"] := by
  have htexts : ∀ text ∈ Stmt.allLeafTexts nestedBlocks, IsOneLine text := by decide
  obtain ⟨_, hsection, _⟩ := indentations_agree nestedBlocks htexts 1
  exact ⟨htexts, hsection.trans (by decide)⟩

end TensorBridge
