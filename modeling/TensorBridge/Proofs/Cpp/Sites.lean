import TensorBridge.Proofs.Cpp.Parts

/-!
# Expressions where they stand

A declaration is in force for the statements after it in its block and in the blocks inside them, the variable of a
loop in the body of the loop. Here every expression that some statements evaluate comes with the bindings that are in
force where it stands, so that a condition on an expression can refer to the loops and the declarations around it.
-/

namespace TensorBridge

/-- What introduces a variable: a declaration, or a loop that counts it up to a bound. -/
inductive Binding
  | declared (name : String)
  | counted (name : String) (bound : Expr)

/-- The variable that a binding introduces. -/
def Binding.name : Binding → String
  | .declared name => name
  | .counted name _ => name

/-- An expression that is evaluated, and the bindings in force there, the latest one last. -/
structure Site where
  around : List Binding
  expr : Expr

/-- The variable that a statement declares for those after it. -/
def Stmt.declared? : Stmt → Option String
  | .declare _ _ _ name _ _ => some name
  | _ => none

/-- The variables that statements declare in the block that they stand in. -/
def declaredIn (stmts : List Stmt) : List String := stmts.filterMap Stmt.declared?

/-- The bindings that statements leave for those after them. -/
def bindings (stmts : List Stmt) : List Binding := (declaredIn stmts).map .declared

mutual
/-- The expressions that a statement evaluates. -/
def Stmt.sites (around : List Binding) : Stmt → List Site
  | .declare _ _ _ _ args init => (args ++ init.toList).map fun e => ⟨around, e⟩
  | .assign target value => [⟨around, target⟩, ⟨around, value⟩]
  | .eval e => [⟨around, e⟩]
  | .stop => []
  | .loop var bound body => ⟨around, bound⟩ :: allSites (around ++ [.counted var bound]) body
  | .branch cond body orElse => ⟨around, cond⟩ :: (allSites around body ++ allSites around orElse)
  | .scope body => allSites around body
/-- The expressions that some statements evaluate one after the other. -/
def Stmt.allSites (around : List Binding) : List Stmt → List Site
  | [] => []
  | s :: rest => sites around s ++ allSites (around ++ bindings [s]) rest
end

/-- A site inside further surroundings. -/
def Site.inside (around : List Binding) (site : Site) : Site := ⟨around ++ site.around, site.expr⟩

mutual
/-- The surroundings of a statement are those of each of its expressions. -/
theorem Stmt.sites_eq (around : List Binding) :
    ∀ s : Stmt, s.sites around = (s.sites []).map (Site.inside around)
  | .declare _ _ _ _ args init => by simp [sites, Site.inside, Function.comp_def]
  | .assign target value => by simp [sites, Site.inside]
  | .eval e => by simp [sites, Site.inside]
  | .stop => by simp [sites]
  | .loop var bound body => by
    rw [sites, sites, List.map_cons, allSites_eq _ body, allSites_eq ([] ++ _) body, List.map_map]
    simp [Site.inside, Function.comp_def]
  | .branch cond body orElse => by
    rw [sites, sites, List.map_cons, List.map_append, ← allSites_eq around body, ← allSites_eq around orElse]
    simp [Site.inside]
  | .scope body => by
    rw [sites, sites, ← allSites_eq around body]
/-- The surroundings of some statements are those of each of their expressions. -/
theorem Stmt.allSites_eq (around : List Binding) :
    ∀ stmts : List Stmt, allSites around stmts = (allSites [] stmts).map (Site.inside around)
  | [] => rfl
  | s :: rest => by
    rw [allSites, allSites, List.map_append, ← sites_eq around s, allSites_eq _ rest, allSites_eq ([] ++ _) rest,
      List.map_map]
    simp [Site.inside, Function.comp_def]
end

mutual
/-- The sites of a statement are those of the expressions that it evaluates. -/
theorem Stmt.map_expr_sites (around : List Binding) :
    ∀ s : Stmt, (s.sites around).map Site.expr = s.roots.map Prod.snd
  | .declare _ _ _ _ args init => by simp [sites, Function.comp_def]
  | .assign target value => rfl
  | .eval e => rfl
  | .stop => rfl
  | .loop var bound body => by
    rw [sites, roots, List.map_cons, List.map_cons, map_expr_allSites]
  | .branch cond body orElse => by
    rw [sites, roots, List.map_cons, List.map_cons, List.map_append, List.map_append, map_expr_allSites,
      map_expr_allSites]
  | .scope body => by
    rw [sites, roots, map_expr_allSites]
/-- The sites of some statements are those of the expressions that they evaluate. -/
theorem Stmt.map_expr_allSites (around : List Binding) :
    ∀ stmts : List Stmt, (allSites around stmts).map Site.expr = (allRoots stmts).map Prod.snd
  | [] => rfl
  | s :: rest => by
    rw [allSites, allRoots, List.map_append, List.map_append, map_expr_sites, map_expr_allSites]
end

/-! ## Declared variables -/

/-- Statements declare what each of them declares. -/
@[simp] theorem declaredIn_append (a b : List Stmt) : declaredIn (a ++ b) = declaredIn a ++ declaredIn b :=
  List.filterMap_append

/-- Statements in a row leave the bindings of both parts. -/
@[simp] theorem bindings_append (a b : List Stmt) : bindings (a ++ b) = bindings a ++ bindings b := by
  rw [bindings, declaredIn_append, List.map_append]
  rfl

/-- The variables of the bindings that statements leave. -/
@[simp] theorem map_name_bindings (stmts : List Stmt) : (bindings stmts).map Binding.name = declaredIn stmts := by
  rw [bindings, List.map_map]
  exact List.map_id _

/-- Statements that declare nothing leave no bindings. -/
theorem bindings_eq_nil {stmts : List Stmt} (h : declaredIn stmts = []) : bindings stmts = [] := by
  rw [bindings, h]
  rfl

/-- Sections of statements declare what each of them declares. -/
theorem mem_declaredIn_flatten {sections : List (List Stmt)} {name : String}
    (h : name ∈ declaredIn sections.flatten) : ∃ stmts ∈ sections, name ∈ declaredIn stmts := by
  obtain ⟨s, hs, hname⟩ := List.mem_filterMap.mp h
  obtain ⟨stmts, hstmts, hs⟩ := List.mem_flatten.mp hs
  exact ⟨stmts, hstmts, List.mem_filterMap.mpr ⟨s, hs, hname⟩⟩

/-- A declaration and what follows it. -/
theorem declaredIn_cons_of_some {s : Stmt} {name : String} (h : s.declared? = some name) (rest : List Stmt) :
    declaredIn (s :: rest) = name :: declaredIn rest :=
  List.filterMap_cons_some h

/-- The binding of one declaration. -/
theorem bindings_singleton {s : Stmt} {name : String} (h : s.declared? = some name) :
    bindings [s] = [.declared name] := by
  rw [bindings, declaredIn_cons_of_some h]
  rfl

/-- Statements declare nothing if none of them does. -/
theorem declaredIn_eq_nil_iff {stmts : List Stmt} : declaredIn stmts = [] ↔ ∀ s ∈ stmts, s.declared? = none :=
  List.filterMap_eq_nil_iff

/-- A nest of loops declares nothing in the block that it stands in. -/
theorem declaredIn_nested_cons (l : Loop) (rest : List Loop) (inner : List Stmt) :
    declaredIn (nested (l :: rest) inner) = [] := rfl

/-! ## A condition on all sites -/

/-- A condition on everything that a statement evaluates. -/
def Stmt.HoldsAt (P : Site → Prop) (around : List Binding) (s : Stmt) : Prop := ∀ site ∈ s.sites around, P site

/-- A condition on everything that some statements evaluate. -/
def EverySite (P : Site → Prop) (around : List Binding) (stmts : List Stmt) : Prop :=
  ∀ site ∈ Stmt.allSites around stmts, P site

section EverySite

variable {P : Site → Prop} {around : List Binding}

/-- A condition on a declaration. -/
@[simp] theorem Stmt.holdsAt_declare {constant array : Bool} {type name : String} {args : List Expr}
    {init : Option Expr} :
    (Stmt.declare constant array type name args init).HoldsAt P around ↔
      (∀ e ∈ args, P ⟨around, e⟩) ∧ ∀ e ∈ init, P ⟨around, e⟩ := by
  simp [HoldsAt, sites, or_imp, forall_and]

/-- A condition on an assignment. -/
@[simp] theorem Stmt.holdsAt_assign {target value : Expr} :
    (Stmt.assign target value).HoldsAt P around ↔ P ⟨around, target⟩ ∧ P ⟨around, value⟩ := by
  simp [HoldsAt, sites]

/-- A condition on an evaluation. -/
@[simp] theorem Stmt.holdsAt_eval {e : Expr} : (Stmt.eval e).HoldsAt P around ↔ P ⟨around, e⟩ := by
  simp [HoldsAt, sites]

/-- A condition on the end of a loop. -/
@[simp] theorem Stmt.holdsAt_stop : Stmt.stop.HoldsAt P around := by
  simp [HoldsAt, sites]

/-- A condition on a loop. -/
@[simp] theorem Stmt.holdsAt_loop {var : String} {bound : Expr} {body : List Stmt} :
    (Stmt.loop var bound body).HoldsAt P around ↔
      P ⟨around, bound⟩ ∧ EverySite P (around ++ [.counted var bound]) body := by
  rw [HoldsAt, sites, List.forall_mem_cons]
  rfl

/-- A condition on a branch. -/
@[simp] theorem Stmt.holdsAt_branch {cond : Expr} {body orElse : List Stmt} :
    (Stmt.branch cond body orElse).HoldsAt P around ↔
      P ⟨around, cond⟩ ∧ EverySite P around body ∧ EverySite P around orElse := by
  rw [HoldsAt, sites, List.forall_mem_cons, List.forall_mem_append]
  rfl

/-- A condition on a block. -/
@[simp] theorem Stmt.holdsAt_scope {body : List Stmt} :
    (Stmt.scope body).HoldsAt P around ↔ EverySite P around body := by
  rw [HoldsAt, sites]
  rfl

/-- A condition on no statements. -/
@[simp] theorem everySite_nil : EverySite P around [] := by
  simp [EverySite, Stmt.allSites]

/-- A condition on statements is one on the first, and on the others where its declaration is in force. -/
theorem everySite_cons {s : Stmt} {rest : List Stmt} :
    EverySite P around (s :: rest) ↔ s.HoldsAt P around ∧ EverySite P (around ++ bindings [s]) rest := by
  rw [EverySite, Stmt.allSites, List.forall_mem_append]
  rfl

/-- A condition on statements in a row is one on the first part, and on the second where the declarations of the first
are in force. -/
theorem everySite_append {a b : List Stmt} :
    EverySite P around (a ++ b) ↔ EverySite P around a ∧ EverySite P (around ++ bindings a) b := by
  induction a generalizing around with
  | nil => simp [bindings, declaredIn]
  | cons s rest ih =>
    rw [List.cons_append, everySite_cons, everySite_cons, ih, and_assoc, List.append_assoc, ← bindings_append]
    rfl

/-- A condition on statements that declare nothing is one on each of them. -/
theorem everySite_of_forall {stmts : List Stmt} (hnone : ∀ s ∈ stmts, s.declared? = none)
    (h : ∀ s ∈ stmts, s.HoldsAt P around) : EverySite P around stmts := by
  induction stmts with
  | nil => exact everySite_nil
  | cons s rest ih =>
    obtain ⟨hs, hrest⟩ := List.forall_mem_cons.mp hnone
    obtain ⟨hfirst, hothers⟩ := List.forall_mem_cons.mp h
    rw [everySite_cons, bindings_eq_nil (declaredIn_eq_nil_iff.mpr (List.forall_mem_singleton.mpr hs)), List.append_nil]
    exact ⟨hfirst, ih hrest hothers⟩

/-- A condition that holds of each of some statements wherever they stand. -/
theorem everySite_of_everywhere {stmts : List Stmt} (h : ∀ s ∈ stmts, ∀ more, s.HoldsAt P (around ++ more)) :
    EverySite P around stmts := by
  induction stmts generalizing around with
  | nil => exact everySite_nil
  | cons s rest ih =>
    obtain ⟨hfirst, hothers⟩ := List.forall_mem_cons.mp h
    rw [everySite_cons]
    constructor
    · simpa using hfirst []
    · apply ih
      intro s' hs' more
      rw [List.append_assoc]
      exact hothers s' hs' _

/-- A condition that does not look at the surroundings. -/
theorem EverySite.everyPart {Q : Expr → Prop} {stmts : List Stmt} (h : EverySite P around stmts)
    (hPQ : ∀ site, P site → site.expr.Every Q) : EveryPart Q stmts := by
  intro root hroot
  have hmem : root.2 ∈ (Stmt.allSites around stmts).map Site.expr := by
    rw [Stmt.map_expr_allSites]
    exact List.mem_map_of_mem hroot
  obtain ⟨site, hsite, hexpr⟩ := List.mem_map.mp hmem
  rw [← hexpr]
  exact hPQ site (h site hsite)

/-- A condition that can be carried over to other surroundings. -/
theorem EverySite.transfer {Q : Site → Prop} {around' : List Binding} {stmts : List Stmt}
    (h : EverySite P around stmts) (hPQ : ∀ more e, P ⟨around ++ more, e⟩ → Q ⟨around' ++ more, e⟩) :
    EverySite Q around' stmts := by
  unfold EverySite at h ⊢
  rw [Stmt.allSites_eq, List.forall_mem_map] at h ⊢
  exact fun site hsite => hPQ site.around site.expr (h site hsite)

/-- A condition on sections of statements, of which each meets it wherever it stands. -/
theorem everySite_flatten {sections : List (List Stmt)}
    (h : ∀ stmts ∈ sections, ∀ more, EverySite P (around ++ more) stmts) : EverySite P around sections.flatten := by
  induction sections generalizing around with
  | nil => exact everySite_nil
  | cons stmts rest ih =>
    obtain ⟨hfirst, hothers⟩ := List.forall_mem_cons.mp h
    rw [List.flatten_cons, everySite_append]
    constructor
    · simpa using hfirst []
    · apply ih
      intro stmts' hstmts' more
      rw [List.append_assoc]
      exact hothers stmts' hstmts' _

end EverySite

end TensorBridge
