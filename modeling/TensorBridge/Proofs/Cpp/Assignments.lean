import TensorBridge.Proofs.Cpp.Parts

/-!
# Assignments

The assignments in some statements, in their order and however deep, so that a list of what is copied leaves nothing
out. Loops around an assignment do not repeat it here.
-/

namespace TensorBridge

mutual
/-- The targets and the values of a statement's assignments. -/
def Stmt.assignments : Stmt → List (Expr × Expr)
  | .declare _ _ _ _ _ _ => []
  | .assign target value => [(target, value)]
  | .eval _ => []
  | .stop => []
  | .loop _ _ body => allAssignments body
  | .branch _ body orElse => allAssignments body ++ allAssignments orElse
  | .scope body => allAssignments body
/-- The targets and the values of the assignments in some statements. -/
def Stmt.allAssignments : List Stmt → List (Expr × Expr)
  | [] => []
  | s :: rest => assignments s ++ allAssignments rest
end

namespace Stmt

/-- The assignments in statements are those in each. -/
theorem allAssignments_append (a b : List Stmt) : allAssignments (a ++ b) = allAssignments a ++ allAssignments b := by
  induction a with
  | nil => rfl
  | cons s rest ih => rw [List.cons_append, allAssignments, allAssignments, ih, List.append_assoc]

/-- Statements without assignments one by one. -/
theorem allAssignments_eq_nil {stmts : List Stmt} (h : ∀ s ∈ stmts, s.assignments = []) : allAssignments stmts = [] := by
  induction stmts with
  | nil => rfl
  | cons s rest ih =>
    obtain ⟨hs, hrest⟩ := List.forall_mem_cons.mp h
    rw [allAssignments, hs, ih hrest]
    rfl

/-- Assignments one by one. -/
theorem allAssignments_map_assign (pairs : List (Expr × Expr)) :
    allAssignments (pairs.map fun pair => .assign pair.1 pair.2) = pairs := by
  induction pairs with
  | nil => rfl
  | cons pair rest ih => rw [List.map_cons, allAssignments, assignments, ih, List.singleton_append]

/-- A nest of loops that assign nothing around an inner part has the assignments of this part. -/
theorem allAssignments_nested {loops : List Loop} {inner : List Stmt}
    (hloops : ∀ l ∈ loops, allAssignments l.before = [] ∧ allAssignments l.after = []) :
    allAssignments (nested loops inner) = allAssignments inner := by
  induction loops with
  | nil => rfl
  | cons l rest ih =>
    obtain ⟨⟨hbefore, hafter⟩, hrest⟩ := List.forall_mem_cons.mp hloops
    rw [nested, allAssignments, assignments, allAssignments, allAssignments_append, allAssignments_append, hbefore,
      hafter, ih hrest, List.nil_append, List.append_nil, List.append_nil]

end Stmt

end TensorBridge
