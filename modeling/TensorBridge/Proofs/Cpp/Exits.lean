import TensorBridge.Cpp.Tree

/-!
# Ways out of loops

A loop ends early where a statement in it stops it. Each such statement is listed with the place where it stands, so
that a list of them says of every loop whether it may end early, when this is decided, and what a pass has done by then.
-/

namespace TensorBridge

/-- A statement that stops a loop, where it stands: the variables of the loops around it, the outermost first; the
statements that a pass of the innermost loop comes by before; and the tests that have to turn out as they are given. -/
structure Exit where
  loops : List String
  before : List Stmt
  tests : List (Expr × Bool)

mutual
/-- The ways out of loops in a statement that stands in some loops, behind some statements of the innermost of them and
under some tests. -/
def Stmt.exits (loops : List String) (before : List Stmt) (tests : List (Expr × Bool)) : Stmt → List Exit
  | .declare _ _ _ _ _ _ => []
  | .assign _ _ => []
  | .eval _ => []
  | .stop => [⟨loops, before, tests⟩]
  | .loop var _ body => allExits (loops ++ [var]) [] [] body
  | .branch cond body orElse =>
    allExits loops before (tests ++ [(cond, true)]) body ++ allExits loops before (tests ++ [(cond, false)]) orElse
  | .scope body => allExits loops before tests body
/-- The ways out of loops in some statements one after the other. -/
def Stmt.allExits (loops : List String) (before : List Stmt) (tests : List (Expr × Bool)) : List Stmt → List Exit
  | [] => []
  | s :: rest => exits loops before tests s ++ allExits loops (before ++ [s]) tests rest
end

/-- The ways out of loops in some statements. -/
def exitsIn (stmts : List Stmt) : List Exit := Stmt.allExits [] [] [] stmts

/-- A statement without a way out of a loop, wherever it stands. -/
def Stmt.NeverStops (s : Stmt) : Prop := ∀ loops before tests, s.exits loops before tests = []

namespace Stmt

variable {loops : List String} {before : List Stmt} {tests : List (Expr × Bool)}

/-- The ways out in statements are those in the first ones, and those in the others behind them. -/
theorem allExits_append (a b : List Stmt) :
    allExits loops before tests (a ++ b) = allExits loops before tests a ++ allExits loops (before ++ a) tests b := by
  induction a generalizing before with
  | nil => simp [allExits]
  | cons s rest ih => rw [List.cons_append, allExits, allExits, ih, List.append_cons before s rest, ← List.append_assoc]

/-- Statements that never stop a loop have no way out. -/
theorem allExits_eq_nil {stmts : List Stmt} (h : ∀ s ∈ stmts, s.NeverStops) :
    allExits loops before tests stmts = [] := by
  induction stmts generalizing before with
  | nil => rfl
  | cons s rest ih =>
    obtain ⟨hs, hrest⟩ := List.forall_mem_cons.mp h
    rw [allExits, hs, ih hrest]
    rfl

/-- A loop is never stopped by statements that never stop one. -/
theorem neverStops_loop {var : String} {bound : Expr} {body : List Stmt} (h : ∀ s ∈ body, s.NeverStops) :
    (Stmt.loop var bound body).NeverStops :=
  fun _ _ _ => allExits_eq_nil h

/-- A nest of loops around statements that never stop one. -/
theorem neverStops_nested {nest : List Loop} {inner : List Stmt}
    (hnest : ∀ l ∈ nest, (∀ s ∈ l.before, s.NeverStops) ∧ ∀ s ∈ l.after, s.NeverStops)
    (hinner : ∀ s ∈ inner, s.NeverStops) : ∀ s ∈ nested nest inner, s.NeverStops := by
  induction nest with
  | nil => exact hinner
  | cons l rest ih =>
    obtain ⟨⟨hbefore, hafter⟩, hrest⟩ := List.forall_mem_cons.mp hnest
    refine List.forall_mem_singleton.mpr (neverStops_loop ?_)
    rw [List.forall_mem_append, List.forall_mem_append]
    exact ⟨⟨hbefore, ih hrest⟩, hafter⟩

end Stmt

end TensorBridge
