import TensorBridge.Cpp.Tree

/-!
# Parts of statements

Every expression that occurs in some statements, however deep, together with the variable that it helps to declare.
Calls of functions and of methods are found among these parts, so that a list of calls leaves none out.
-/

namespace TensorBridge

mutual
/-- The parts of an expression: itself, then those of the expressions that it is made of. -/
@[simp] def Expr.parts : Expr → List Expr
  | .name text => [.name text]
  | .int value => [.int value]
  | .float value => [.float value]
  | .string value => [.string value]
  | .call function args => .call function args :: (parts function ++ allParts args)
  | .method base arrow called args => .method base arrow called args :: (parts base ++ allParts args)
  | .member base field => .member base field :: parts base
  | .subscript base index => .subscript base index :: (parts base ++ parts index)
  | .element base container index valueType =>
    .element base container index valueType :: (parts base ++ allParts index)
  | .binary operator left right => .binary operator left right :: (parts left ++ parts right)
  | .address target => .address target :: parts target
  | .initializer items => .initializer items :: allParts items
/-- The parts of some expressions. -/
@[simp] def Expr.allParts : List Expr → List Expr
  | [] => []
  | e :: rest => parts e ++ allParts rest
end

mutual
/-- The expressions that a statement evaluates, each with the variable that it declares, if any. -/
@[simp] def Stmt.roots : Stmt → List (Option String × Expr)
  | .declare _ _ _ name args init => (args ++ init.toList).map fun e => (some name, e)
  | .assign target value => [(none, target), (none, value)]
  | .eval e => [(none, e)]
  | .stop => []
  | .loop _ bound body => (none, bound) :: allRoots body
  | .branch cond body orElse => (none, cond) :: (allRoots body ++ allRoots orElse)
  | .scope body => allRoots body
/-- The expressions that some statements evaluate. -/
@[simp] def Stmt.allRoots : List Stmt → List (Option String × Expr)
  | [] => []
  | s :: rest => roots s ++ allRoots rest
end

/-- The expressions that occur in some statements, each with the variable whose declaration it is part of. -/
def partsOf (stmts : List Stmt) : List (Option String × Expr) :=
  (Stmt.allRoots stmts).flatMap fun root => root.2.parts.map fun e => (root.1, e)

/-- The arguments of a call of a method. -/
def Expr.methodArgs? (called : String) : Expr → Option (List Expr)
  | .method _ _ other args => if other = called then some args else none
  | _ => none

/-- The calls of a method: the variable that each helps to declare, and its arguments. -/
def methodCalls (called : String) (stmts : List Stmt) : List (Option String × List Expr) :=
  (partsOf stmts).filterMap fun part => (part.2.methodArgs? called).map fun args => (part.1, args)

/-- The function and the arguments of a call. -/
def Expr.call? : Expr → Option (Expr × List Expr)
  | .call function args => some (function, args)
  | _ => none

/-- The calls of functions with their arguments. -/
def functionCalls (stmts : List Stmt) : List (Expr × List Expr) :=
  (partsOf stmts).filterMap fun part => part.2.call?

/-! ## One statement after the other -/

/-- Statements evaluate what each of them evaluates. -/
theorem Stmt.allRoots_append (a b : List Stmt) : Stmt.allRoots (a ++ b) = Stmt.allRoots a ++ Stmt.allRoots b := by
  induction a with
  | nil => rfl
  | cons s rest ih => rw [List.cons_append, allRoots, allRoots, ih, List.append_assoc]

/-- The parts of statements are those of each. -/
theorem partsOf_append (a b : List Stmt) : partsOf (a ++ b) = partsOf a ++ partsOf b := by
  rw [partsOf, Stmt.allRoots_append, List.flatMap_append]
  rfl

/-- The calls of a method in statements are those in each. -/
theorem methodCalls_append (called : String) (a b : List Stmt) :
    methodCalls called (a ++ b) = methodCalls called a ++ methodCalls called b := by
  rw [methodCalls, partsOf_append, List.filterMap_append]
  rfl

/-- The calls of a method in some statements are those in the first and in the others. -/
theorem methodCalls_cons (called : String) (s : Stmt) (rest : List Stmt) :
    methodCalls called (s :: rest) = methodCalls called [s] ++ methodCalls called rest :=
  methodCalls_append called [s] rest

/-- The calls of functions in statements are those in each. -/
theorem functionCalls_append (a b : List Stmt) : functionCalls (a ++ b) = functionCalls a ++ functionCalls b := by
  rw [functionCalls, partsOf_append, List.filterMap_append]
  rfl

/-- The calls of functions in some statements are those in the first and in the others. -/
theorem functionCalls_cons (s : Stmt) (rest : List Stmt) :
    functionCalls (s :: rest) = functionCalls [s] ++ functionCalls rest :=
  functionCalls_append [s] rest

/-- The parts of a block are those of its statements. -/
theorem partsOf_scope (body : List Stmt) : partsOf [.scope body] = partsOf body := by
  rw [partsOf, Stmt.allRoots, Stmt.roots, Stmt.allRoots, List.append_nil]
  rfl

/-- The parts of a branch are those of its test and of both sides. -/
theorem partsOf_branch (cond : Expr) (body orElse : List Stmt) :
    partsOf [.branch cond body orElse] = partsOf [.eval cond] ++ (partsOf body ++ partsOf orElse) := by
  rw [partsOf, Stmt.allRoots, Stmt.roots, Stmt.allRoots, List.append_nil, List.flatMap_cons, List.flatMap_append,
    partsOf, Stmt.allRoots, Stmt.roots, Stmt.allRoots, List.append_nil, List.flatMap_singleton]
  rfl

/-- The calls of a method in a block are those in its statements. -/
theorem methodCalls_scope (called : String) (body : List Stmt) :
    methodCalls called [.scope body] = methodCalls called body := by
  rw [methodCalls, partsOf_scope]
  rfl

/-- The calls of a method in a branch are those in its test and on both sides. -/
theorem methodCalls_branch (called : String) (cond : Expr) (body orElse : List Stmt) :
    methodCalls called [.branch cond body orElse] =
      methodCalls called [.eval cond] ++ (methodCalls called body ++ methodCalls called orElse) := by
  rw [methodCalls, partsOf_branch, List.filterMap_append, List.filterMap_append]
  rfl

/-! ## A condition on all parts -/

/-- A condition on all parts of an expression. -/
def Expr.Every (P : Expr → Prop) (e : Expr) : Prop := ∀ part ∈ e.parts, P part

/-- A condition on all parts of a statement. -/
def Stmt.Every (P : Expr → Prop) (s : Stmt) : Prop := ∀ root ∈ s.roots, root.2.Every P

/-- A condition on all parts of some statements. -/
def EveryPart (P : Expr → Prop) (stmts : List Stmt) : Prop := ∀ root ∈ Stmt.allRoots stmts, root.2.Every P

section Every

variable {P : Expr → Prop}

/-- The parts of some expressions are those of each. -/
theorem Expr.forall_mem_allParts {es : List Expr} : (∀ part ∈ allParts es, P part) ↔ ∀ e ∈ es, e.Every P := by
  induction es with
  | nil => simp [allParts]
  | cons e rest ih =>
    rw [allParts, List.forall_mem_append, ih, List.forall_mem_cons]
    rfl

/-- A condition on a name. -/
@[simp] theorem Expr.every_name {text : String} : (Expr.name text).Every P ↔ P (.name text) := by
  simp [Every, parts]

/-- A condition on a whole number. -/
@[simp] theorem Expr.every_int {value : Int} : (Expr.int value).Every P ↔ P (.int value) := by
  simp [Every, parts]

/-- A condition on a number that is repeated. -/
theorem Expr.every_replicate_count {times value : Nat} (h : P (.int value)) :
    ∀ e ∈ List.replicate times (Expr.count value), e.Every P := by
  intro e he
  rw [List.eq_of_mem_replicate he]
  exact every_int.mpr h

/-- A condition on a text. -/
@[simp] theorem Expr.every_string {value : String} : (Expr.string value).Every P ↔ P (.string value) := by
  simp [Every, parts]

/-- A condition on a call. -/
@[simp] theorem Expr.every_call {function : Expr} {args : List Expr} :
    (Expr.call function args).Every P ↔ P (.call function args) ∧ function.Every P ∧ ∀ e ∈ args, e.Every P := by
  rw [Every, parts, List.forall_mem_cons, List.forall_mem_append, forall_mem_allParts]
  rfl

/-- A condition on a call of a method. -/
@[simp] theorem Expr.every_method {base : Expr} {arrow : Bool} {called : String} {args : List Expr} :
    (Expr.method base arrow called args).Every P ↔
      P (.method base arrow called args) ∧ base.Every P ∧ ∀ e ∈ args, e.Every P := by
  rw [Every, parts, List.forall_mem_cons, List.forall_mem_append, forall_mem_allParts]
  rfl

/-- A condition on a member. -/
@[simp] theorem Expr.every_member {base : Expr} {field : String} :
    (Expr.member base field).Every P ↔ P (.member base field) ∧ base.Every P := by
  rw [Every, parts, List.forall_mem_cons]
  rfl

/-- A condition on a subscript. -/
@[simp] theorem Expr.every_subscript {base index : Expr} :
    (Expr.subscript base index).Every P ↔ P (.subscript base index) ∧ base.Every P ∧ index.Every P := by
  rw [Every, parts, List.forall_mem_cons, List.forall_mem_append]
  rfl

/-- A condition on an element of a block. -/
@[simp] theorem Expr.every_element {base : Expr} {container : Container} {index : List Expr} {valueType : String} :
    (Expr.element base container index valueType).Every P ↔
      P (.element base container index valueType) ∧ base.Every P ∧ ∀ e ∈ index, e.Every P := by
  rw [Every, parts, List.forall_mem_cons, List.forall_mem_append, forall_mem_allParts]
  rfl

/-- A condition on an operation. -/
@[simp] theorem Expr.every_binary {operator : String} {left right : Expr} :
    (Expr.binary operator left right).Every P ↔ P (.binary operator left right) ∧ left.Every P ∧ right.Every P := by
  rw [Every, parts, List.forall_mem_cons, List.forall_mem_append]
  rfl

/-- A condition on an address. -/
@[simp] theorem Expr.every_address {target : Expr} :
    (Expr.address target).Every P ↔ P (.address target) ∧ target.Every P := by
  rw [Every, parts, List.forall_mem_cons]
  rfl

/-- A condition on a list of values. -/
@[simp] theorem Expr.every_initializer {items : List Expr} :
    (Expr.initializer items).Every P ↔ P (.initializer items) ∧ ∀ e ∈ items, e.Every P := by
  rw [Every, parts, List.forall_mem_cons, forall_mem_allParts]

/-- A condition on a declaration. -/
@[simp] theorem Stmt.every_declare {constant array : Bool} {type name : String} {args : List Expr}
    {init : Option Expr} :
    (Stmt.declare constant array type name args init).Every P ↔
      (∀ e ∈ args, e.Every P) ∧ ∀ e ∈ init, e.Every P := by
  simp [Every, roots, or_imp, forall_and]

/-- A condition on an assignment. -/
@[simp] theorem Stmt.every_assign {target value : Expr} :
    (Stmt.assign target value).Every P ↔ target.Every P ∧ value.Every P := by
  simp [Every, roots]

/-- A condition on an evaluation. -/
@[simp] theorem Stmt.every_eval {e : Expr} : (Stmt.eval e).Every P ↔ e.Every P := by
  simp [Every, roots]

/-- A condition on the end of a loop. -/
@[simp] theorem Stmt.every_stop : Stmt.stop.Every P := by
  simp [Every, roots]

/-- A condition on a loop. -/
@[simp] theorem Stmt.every_loop {var : String} {bound : Expr} {body : List Stmt} :
    (Stmt.loop var bound body).Every P ↔ bound.Every P ∧ EveryPart P body := by
  rw [Every, roots, List.forall_mem_cons]
  rfl

/-- A condition on a branch. -/
@[simp] theorem Stmt.every_branch {cond : Expr} {body orElse : List Stmt} :
    (Stmt.branch cond body orElse).Every P ↔ cond.Every P ∧ EveryPart P body ∧ EveryPart P orElse := by
  rw [Every, roots, List.forall_mem_cons, List.forall_mem_append]
  rfl

/-- A condition on a block. -/
@[simp] theorem Stmt.every_scope {body : List Stmt} : (Stmt.scope body).Every P ↔ EveryPart P body := by
  rw [Every, roots]
  rfl

/-- A condition on no statements. -/
@[simp] theorem everyPart_nil : EveryPart P [] := by
  simp [EveryPart, Stmt.allRoots]

/-- A condition on statements is one on the first and one on the others. -/
@[simp] theorem everyPart_cons {s : Stmt} {rest : List Stmt} :
    EveryPart P (s :: rest) ↔ s.Every P ∧ EveryPart P rest := by
  rw [EveryPart, Stmt.allRoots, List.forall_mem_append]
  rfl

/-- A weaker condition on an expression. -/
theorem Expr.Every.imp {Q : Expr → Prop} (hPQ : ∀ e, P e → Q e) {e : Expr} (h : e.Every P) : e.Every Q :=
  fun part hpart => hPQ part (h part hpart)

/-- A weaker condition on statements. -/
theorem EveryPart.imp {Q : Expr → Prop} (hPQ : ∀ e, P e → Q e) {stmts : List Stmt} (h : EveryPart P stmts) :
    EveryPart Q stmts :=
  fun root hroot => (h root hroot).imp hPQ

/-- A condition on statements holds of each of their parts. -/
theorem EveryPart.of_mem {stmts : List Stmt} (h : EveryPart P stmts) {part : Option String × Expr}
    (hpart : part ∈ partsOf stmts) : P part.2 := by
  obtain ⟨root, hroot, hpart⟩ := List.mem_flatMap.mp hpart
  obtain ⟨e, he, rfl⟩ := List.mem_map.mp hpart
  exact h root hroot e he

/-- A condition on statements in a row is one on both parts. -/
@[simp] theorem everyPart_append {a b : List Stmt} : EveryPart P (a ++ b) ↔ EveryPart P a ∧ EveryPart P b := by
  rw [EveryPart, Stmt.allRoots_append, List.forall_mem_append]
  rfl

/-- A condition on statements one by one. -/
theorem everyPart_iff {stmts : List Stmt} : EveryPart P stmts ↔ ∀ s ∈ stmts, s.Every P := by
  induction stmts with
  | nil => simp
  | cons s rest ih => rw [everyPart_cons, ih, List.forall_mem_cons]

/-- A condition on a chain of subscripts. -/
theorem Expr.every_subscripts (hsubscript : ∀ a b, P (.subscript a b)) {base : Expr} {index : List Expr}
    (hbase : base.Every P) (hindex : ∀ e ∈ index, e.Every P) : (base.subscripts index).Every P := by
  induction index generalizing base with
  | nil => exact hbase
  | cons e rest ih =>
    obtain ⟨he, hrest⟩ := List.forall_mem_cons.mp hindex
    apply ih _ hrest
    exact every_subscript.mpr ⟨hsubscript base e, hbase, he⟩

/-- A condition on a nest of loops. -/
theorem everyPart_nested {loops : List Loop} {inner : List Stmt}
    (hloops : ∀ l ∈ loops, l.bound.Every P ∧ EveryPart P l.before ∧ EveryPart P l.after)
    (hinner : EveryPart P inner) : EveryPart P (nested loops inner) := by
  induction loops with
  | nil => exact hinner
  | cons l rest ih =>
    obtain ⟨⟨hbound, hbefore, hafter⟩, hrest⟩ := List.forall_mem_cons.mp hloops
    simp only [nested, everyPart_cons, Stmt.every_loop, everyPart_append, everyPart_nil, and_true]
    exact ⟨hbound, ⟨hbefore, ih hrest⟩, hafter⟩

end Every

end TensorBridge
