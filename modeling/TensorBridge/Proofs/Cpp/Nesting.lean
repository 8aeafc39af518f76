import TensorBridge.Cpp.Printer
import TensorBridge.Proofs.Cpp.Parts
import TensorBridge.Proofs.Text.Nesting

/-!
# Brackets of printed statements

What is printed for a statement closes all the brackets that it opens. The brackets come from the printer alone, if
the texts that a tree is made of have none: the names and types in it, and the texts of its literals.
-/

namespace TensorBridge

/-! ## Expressions -/

/-- The texts that an expression adds to those of its parts have no brackets and quotes; the value of a string literal
may have brackets. -/
@[simp] def Expr.AddsPlainText : Expr → Prop
  | .name t => IsPlainText t
  | .float x => IsPlainText x.text
  | .string s => '\x22' ∉ s.toList
  | .method _ _ called _ => IsPlainText called
  | .member _ field => IsPlainText field
  | .element _ _ _ valueType => IsPlainText valueType
  | .binary operator _ _ => IsPlainText operator
  | _ => True

/-- An expression in which all texts are plain. -/
abbrev Expr.IsPlain (e : Expr) : Prop := e.Every AddsPlainText

/-- Doubling the backslashes adds no quotes. -/
theorem not_mem_replaceEach_backslash {cs : List Char} (h : '\x22' ∉ cs) :
    '\x22' ∉ replaceEach '\x5c' ['\x5c', '\x5c'] cs := by
  have hnew : ∀ c ∈ ['\x5c', '\x5c'], c ≠ '\x22' := by simp
  have hcs : ∀ c ∈ cs, c ≠ '\x22' := fun c hc heq => h (heq ▸ hc)
  exact fun hmem => forall_mem_replaceEach hnew hcs _ hmem rfl

/-- A string literal is closed if its value has no quotes. -/
theorem isClosedText_stringLiteral {s : String} (h : '\x22' ∉ s.toList) : IsClosedText (stringLiteral s) := by
  have hbody : '\x22' ∉ (String.ofList (escaped s.toList)).toList := by
    rw [String.toList_ofList, escaped, replaceEach_of_not_mem (not_mem_replaceEach_backslash h)]
    exact not_mem_replaceEach_backslash h
  have htext : stringLiteral s = "\x22" ++ String.ofList (escaped s.toList) ++ "\x22" := by
    rw [← String.toList_inj]
    simp [stringLiteral]
  rw [htext]
  exact isClosedText_quoted hbody [] (fun _ => rfl) fun _ => rfl

/-- Arguments in round brackets are closed. -/
theorem isClosedText_arguments {args : List String} (h : ∀ arg ∈ args, IsClosedText arg) :
    IsClosedText ("(" ++ commaList args ++ ")") :=
  (isClosedText_commaList h).between [.round] (fun _ => rfl) fun _ => rfl

/-- The access to an element is closed. -/
theorem Container.isClosedText_access (container : Container) {index : List String} {elementType : String}
    (hindex : ∀ item ∈ index, IsClosedText item) (htype : IsPlainText elementType) :
    IsClosedText (container.access index elementType) := by
  cases container with
  | mat =>
    have htyped : IsPlainText (".at<" ++ elementType) := isPlainText_append.mpr ⟨by decide, htype⟩
    exact (isClosedText_commaList hindex).between [.round] (fun _ => (htyped.leads _).append rfl) fun _ => rfl
  | matx => exact isClosedText_arguments hindex
  | vec => exact (isClosedText_commaList hindex).between [.square] (fun _ => rfl) fun _ => rfl

mutual
/-- An expression with plain texts is printed as a closed text. -/
theorem Expr.isClosedText_text : ∀ (e : Expr), e.IsPlain → IsClosedText e.text
  | .name t, h => IsPlainText.isClosedText (every_name.mp h)
  | .int n, _ => (isPlainText_int n).isClosedText
  | .float x, h => IsPlainText.isClosedText (h (.float x) List.mem_cons_self)
  | .string s, h => isClosedText_stringLiteral (every_string.mp h)
  | .call function args, h => by
    obtain ⟨_, hfunction, hargs⟩ := every_call.mp h
    have htext : (Expr.call function args).text = function.text ++ ("(" ++ commaList (texts args) ++ ")") := by
      simp only [text, String.append_assoc]
    rw [htext]
    exact (isClosedText_text function hfunction).append (isClosedText_arguments (isClosedText_texts args hargs))
  | .method base arrow called args, h => by
    obtain ⟨hcalled, hbase, hargs⟩ := every_method.mp h
    have harrow : IsPlainText (if arrow then "->" else ".") := by cases arrow <;> decide
    have htext : (Expr.method base arrow called args).text =
        base.text ++ (if arrow then "->" else ".") ++ called ++ ("(" ++ commaList (texts args) ++ ")") := by
      simp only [text, String.append_assoc]
    rw [htext]
    exact (((isClosedText_text base hbase).append harrow.isClosedText).append (IsPlainText.isClosedText hcalled)).append
      (isClosedText_arguments (isClosedText_texts args hargs))
  | .member base field, h => by
    obtain ⟨hfield, hbase⟩ := every_member.mp h
    have hdot : IsPlainText "." := by decide
    exact ((isClosedText_text base hbase).append hdot.isClosedText).append (IsPlainText.isClosedText hfield)
  | .subscript base index, h => by
    obtain ⟨_, hbase, hindex⟩ := every_subscript.mp h
    have hbracket : IsClosedText ("[" ++ index.text ++ "]") :=
      (isClosedText_text index hindex).between [.square] (fun _ => rfl) fun _ => rfl
    have htext : (Expr.subscript base index).text = base.text ++ ("[" ++ index.text ++ "]") := by
      simp only [text, String.append_assoc]
    rw [htext]
    exact (isClosedText_text base hbase).append hbracket
  | .element base container index valueType, h => by
    obtain ⟨htype, hbase, hindex⟩ := every_element.mp h
    exact (isClosedText_text base hbase).append (container.isClosedText_access (isClosedText_texts index hindex) htype)
  | .binary operator left right, h => by
    obtain ⟨hoperator, hleft, hright⟩ := every_binary.mp h
    have hspace : IsPlainText " " := by decide
    exact ((((isClosedText_text left hleft).append hspace.isClosedText).append
      (IsPlainText.isClosedText hoperator)).append hspace.isClosedText).append (isClosedText_text right hright)
  | .address target, h => by
    have hsign : IsPlainText "&" := by decide
    exact hsign.isClosedText.append (isClosedText_text target (every_address.mp h).2)
  | .initializer [], _ => fun _ => rfl
  | .initializer (item :: rest), h => by
    obtain ⟨hitem, hrest⟩ := List.forall_mem_cons.mp (every_initializer.mp h).2
    have hitems : ∀ text ∈ item.text :: texts rest, IsClosedText text :=
      List.forall_mem_cons.mpr ⟨isClosedText_text item hitem, isClosedText_texts rest hrest⟩
    exact (isClosedText_commaList hitems).between [.curly] (fun _ => rfl) fun _ => rfl
/-- Expressions with plain texts are printed as closed texts. -/
theorem Expr.isClosedText_texts : ∀ (es : List Expr), (∀ e ∈ es, e.IsPlain) → ∀ text ∈ texts es, IsClosedText text
  | [], _ => List.forall_mem_nil _
  | e :: rest, h => by
    obtain ⟨he, hrest⟩ := List.forall_mem_cons.mp h
    exact List.forall_mem_cons.mpr ⟨isClosedText_text e he, isClosedText_texts rest hrest⟩
end

/-! ## Statements -/

mutual
/-- A statement in which all texts are plain: the type and the name of each declaration, the variable of each loop, and
the texts in its expressions. -/
@[simp] def Stmt.IsPlain : Stmt → Prop
  | .declare _ _ type name args init =>
    IsPlainText type ∧ IsPlainText name ∧ (∀ e ∈ args, e.IsPlain) ∧ ∀ e ∈ init, e.IsPlain
  | .assign target value => target.IsPlain ∧ value.IsPlain
  | .eval e => e.IsPlain
  | .stop => True
  | .loop var bound body => IsPlainText var ∧ bound.IsPlain ∧ ArePlain body
  | .branch cond body orElse => cond.IsPlain ∧ ArePlain body ∧ ArePlain orElse
  | .scope body => ArePlain body
/-- Statements in which all texts are plain. -/
def Stmt.ArePlain : List Stmt → Prop
  | [] => True
  | s :: rest => IsPlain s ∧ ArePlain rest
end

namespace Stmt

/-- Statements are plain if each of them is. -/
theorem arePlain_iff {stmts : List Stmt} : ArePlain stmts ↔ ∀ s ∈ stmts, s.IsPlain := by
  induction stmts with
  | nil => simp [ArePlain]
  | cons s rest ih => rw [ArePlain, ih, List.forall_mem_cons]

/-- Statements in a row are plain if both parts are. -/
theorem arePlain_append {a b : List Stmt} : ArePlain (a ++ b) ↔ ArePlain a ∧ ArePlain b := by
  rw [arePlain_iff, arePlain_iff, arePlain_iff, List.forall_mem_append]

/-- A declaration with a value is plain if the type, the name and the value are. -/
theorem isPlain_initialized {constant array : Bool} {type name : String} {value : Expr} (htype : IsPlainText type)
    (hname : IsPlainText name) (hvalue : value.IsPlain) :
    (Stmt.declare constant array type name [] (some value)).IsPlain :=
  ⟨htype, hname, List.forall_mem_nil _, by simpa using hvalue⟩

/-- A declaration without a value is plain if the type, the name and the arguments are. -/
theorem isPlain_constructed {constant array : Bool} {type name : String} {args : List Expr} (htype : IsPlainText type)
    (hname : IsPlainText name) (hargs : ∀ e ∈ args, e.IsPlain) :
    (Stmt.declare constant array type name args none).IsPlain :=
  ⟨htype, hname, hargs, by simp⟩

/-- A nest of plain loops around plain statements is plain. -/
theorem arePlain_nested {loops : List Loop} {inner : List Stmt}
    (hloops : ∀ l ∈ loops, IsPlainText l.var ∧ l.bound.IsPlain ∧ ArePlain l.before ∧ ArePlain l.after)
    (hinner : ArePlain inner) : ArePlain (nested loops inner) := by
  induction loops with
  | nil => exact hinner
  | cons l rest ih =>
    obtain ⟨⟨hvar, hbound, hbefore, hafter⟩, hrest⟩ := List.forall_mem_cons.mp hloops
    refine arePlain_iff.mpr (List.forall_mem_singleton.mpr ⟨hvar, hbound, ?_⟩)
    exact arePlain_append.mpr ⟨arePlain_append.mpr ⟨hbefore, ih hrest⟩, hafter⟩

/-- A declaration is closed. -/
theorem isClosedText_declaration (constant array : Bool) {type name : String} {args : List Expr} {init : Option Expr}
    (htype : IsPlainText type) (hname : IsPlainText name) (hargs : ∀ e ∈ args, e.IsPlain)
    (hinit : ∀ e ∈ init, e.IsPlain) : IsClosedText (declaration constant array type name args init) := by
  have hconstant : IsPlainText (if constant then "const " else "") := by cases constant <;> decide
  have hspace : IsPlainText " " := by decide
  have hend : IsPlainText ";" := by decide
  unfold declaration
  refine ((((((hconstant.isClosedText.append htype.isClosedText).append hspace.isClosedText).append
    hname.isClosedText).append ?array).append ?args).append ?init).append hend.isClosedText
  case array => cases array <;> exact fun _ => rfl
  case args =>
    split
    · exact fun _ => rfl
    · exact isClosedText_arguments (Expr.isClosedText_texts args hargs)
  case init =>
    cases init with
    | none => exact fun _ => rfl
    | some value =>
      have hequals : IsPlainText " = " := by decide
      exact hequals.isClosedText.append (Expr.isClosedText_text value (hinit value rfl))

section Blocks

variable {opened : List Bracket} {body : List Stmt}

/-- The head of a loop opens a block. -/
theorem leads_loopHead {var : String} {bound : Expr} (hvar : IsPlainText var) (hbound : bound.IsPlain) :
    Leads ⟨false, opened⟩ (loopHead var bound) ⟨false, .curly :: opened⟩ := by
  have hstart : Leads ⟨false, opened⟩ "for (int " ⟨false, .round :: opened⟩ := rfl
  have hzero : IsPlainText " = 0; " := by decide
  have hbelow : IsPlainText " < " := by decide
  have hnext : IsPlainText "; " := by decide
  have hend : Leads ⟨false, .round :: opened⟩ "++) \x7b" ⟨false, .curly :: opened⟩ := rfl
  exact (((((((hstart.append (hvar.leads _)).append (hzero.leads _)).append (hvar.leads _)).append
    (hbelow.leads _)).append (Expr.isClosedText_text bound hbound _)).append (hnext.leads _)).append
      (hvar.leads _)).append hend

/-- The head of a branch opens a block. -/
theorem leads_branchHead {cond : Expr} (hcond : cond.IsPlain) :
    Leads ⟨false, opened⟩ ("if (" ++ cond.text ++ ") \x7b") ⟨false, .curly :: opened⟩ := by
  have hstart : Leads ⟨false, opened⟩ "if (" ⟨false, .round :: opened⟩ := rfl
  have hend : Leads ⟨false, .round :: opened⟩ ") \x7b" ⟨false, .curly :: opened⟩ := rfl
  exact (hstart.append (Expr.isClosedText_text cond hcond _)).append hend

/-- The spaces in front of a line change nothing. -/
theorem leads_pad (level : Int) {before after : Scan} {text : String} (h : Leads before text after) :
    Leads before (pad level ++ text) after :=
  ((isPlainText_spaces _).leads before).append h

/-- The last line of a block closes it. -/
theorem leadsThrough_blockEnd (level : Int) {lines : List String}
    (h : LeadsThrough ⟨false, .curly :: opened⟩ lines ⟨false, .curly :: opened⟩) :
    LeadsThrough ⟨false, .curly :: opened⟩ (lines ++ [pad level ++ "\x7d"]) ⟨false, opened⟩ :=
  h.append (.cons (leads_pad level rfl) .nil)

end Blocks

mutual
/-- The lines of a plain statement close what they open. -/
theorem leadsThrough_lines : ∀ (s : Stmt) (level : Int) (opened : List Bracket), s.IsPlain →
    LeadsThrough ⟨false, opened⟩ (s.lines level) ⟨false, opened⟩
  | .declare constant array type name args init, level, opened, ⟨htype, hname, hargs, hinit⟩ =>
    .cons (leads_pad level (isClosedText_declaration constant array htype hname hargs hinit opened)) .nil
  | .assign target value, level, opened, ⟨htarget, hvalue⟩ => by
    have hequals : IsPlainText " = " := by decide
    have hend : IsPlainText ";" := by decide
    exact .cons (leads_pad level ((((Expr.isClosedText_text target htarget).append hequals.isClosedText).append
      (Expr.isClosedText_text value hvalue)).append hend.isClosedText opened)) .nil
  | .eval e, level, opened, h => by
    have hend : IsPlainText ";" := by decide
    exact .cons (leads_pad level ((Expr.isClosedText_text e h).append hend.isClosedText opened)) .nil
  | .stop, level, _, _ => .cons (leads_pad level rfl) .nil
  | .loop var bound body, level, opened, ⟨hvar, hbound, hbody⟩ => by
    rw [lines, List.cons_append]
    exact .cons (leads_pad level (leads_loopHead hvar hbound))
      (leadsThrough_blockEnd level (leadsThrough_allLines body (level + 1) _ hbody))
  | .branch cond body orElse, level, opened, ⟨hcond, hbody, horElse⟩ => by
    have hhead : Leads ⟨false, opened⟩ (pad level ++ ("if (" ++ cond.text ++ ") \x7b")) ⟨false, .curly :: opened⟩ :=
      leads_pad level (leads_branchHead hcond)
    unfold lines
    dsimp only
    split
    · have hstop : Leads ⟨false, .curly :: opened⟩ " break; \x7d" ⟨false, opened⟩ := rfl
      exact .cons (hhead.append hstop) .nil
    rw [List.cons_append, List.cons_append]
    refine .cons hhead (leadsThrough_blockEnd level ((leadsThrough_allLines body (level + 1) _ hbody).append ?_))
    split
    · exact .nil
    · -- the line between the two blocks closes the first one and opens the second
      have helse : Leads ⟨false, .curly :: opened⟩ "\x7d else \x7b" ⟨false, .curly :: opened⟩ := rfl
      exact .cons (leads_pad level helse) (leadsThrough_allLines orElse (level + 1) _ horElse)
  | .scope body, level, opened, h => by
    have hhead : Leads ⟨false, opened⟩ "\x7b" ⟨false, .curly :: opened⟩ := rfl
    rw [lines, List.cons_append]
    exact .cons (leads_pad level hhead) (leadsThrough_blockEnd level (leadsThrough_allLines body (level + 1) _ h))
/-- The lines of plain statements close what they open. -/
theorem leadsThrough_allLines : ∀ (stmts : List Stmt) (level : Int) (opened : List Bracket), ArePlain stmts →
    LeadsThrough ⟨false, opened⟩ (allLines level stmts) ⟨false, opened⟩
  | [], _, _, _ => .nil
  | s :: rest, level, opened, ⟨hs, hrest⟩ =>
    (leadsThrough_lines s level opened hs).append (leadsThrough_allLines rest level opened hrest)
end

/-- The text of plain statements is closed. -/
theorem isClosedText_stmtText {stmts : List Stmt} (h : ArePlain stmts) : IsClosedText (stmtText stmts) :=
  fun opened => (leadsThrough_allLines stmts 0 opened h).unlines

end Stmt

end TensorBridge
