import TensorBridge.Proofs.Cpp.Sites

/-!
# Declarations block by block

Loops, branches and scopes open blocks. Here the variables that some statements declare are listed for each block on
its own; the variable of a loop belongs to the block of the loop's body.
-/

namespace TensorBridge

mutual
/-- The variables that are declared in the blocks inside a statement, block by block. -/
def Stmt.blocks : Stmt → List (List String)
  | .declare _ _ _ _ _ _ => []
  | .assign _ _ => []
  | .eval _ => []
  | .stop => []
  | .loop var _ body => (var :: declaredIn body) :: allBlocks body
  | .branch _ body orElse => declaredIn body :: declaredIn orElse :: (allBlocks body ++ allBlocks orElse)
  | .scope body => declaredIn body :: allBlocks body
/-- The variables that are declared in the blocks inside some statements, block by block. -/
def Stmt.allBlocks : List Stmt → List (List String)
  | [] => []
  | s :: rest => blocks s ++ allBlocks rest
end

/-- The variables that some statements declare, block by block, their own block first. -/
def blocksOf (stmts : List Stmt) : List (List String) := declaredIn stmts :: Stmt.allBlocks stmts

/-- The blocks inside statements are those inside each of them. -/
theorem Stmt.allBlocks_append (a b : List Stmt) : allBlocks (a ++ b) = allBlocks a ++ allBlocks b := by
  induction a with
  | nil => rfl
  | cons s rest ih => rw [List.cons_append, allBlocks, allBlocks, ih, List.append_assoc]

/-- The blocks inside sections of statements are those inside each of them. -/
theorem Stmt.mem_allBlocks_flatten {sections : List (List Stmt)} {block : List String}
    (h : block ∈ allBlocks sections.flatten) : ∃ stmts ∈ sections, block ∈ allBlocks stmts := by
  induction sections with
  | nil => cases h
  | cons stmts rest ih =>
    rw [List.flatten_cons, allBlocks_append] at h
    rcases List.mem_append.mp h with h | h
    · exact ⟨stmts, List.mem_cons_self, h⟩
    · obtain ⟨stmts', hstmts', h⟩ := ih h
      exact ⟨stmts', List.mem_cons_of_mem stmts hstmts', h⟩

/-- There are no blocks inside statements that open none. -/
theorem Stmt.allBlocks_eq_nil {stmts : List Stmt} (h : ∀ s ∈ stmts, s.blocks = []) : allBlocks stmts = [] := by
  induction stmts with
  | nil => rfl
  | cons s rest ih =>
    obtain ⟨hs, hrest⟩ := List.forall_mem_cons.mp h
    rw [allBlocks, hs, ih hrest]
    rfl

/-- The blocks of a nest of loops whose innermost statements alone declare variables. -/
theorem forall_mem_allBlocks_nested {B : List String → Prop} {loops : List Loop} {inner : List Stmt}
    (hloops : ∀ l ∈ loops, declaredIn l.before = [] ∧ (∀ block ∈ Stmt.allBlocks l.before, B block) ∧ l.after = [])
    (hvars : ∀ l ∈ loops, B [l.var] ∧ B (l.var :: declaredIn inner)) (hinner : ∀ block ∈ Stmt.allBlocks inner, B block) :
    ∀ block ∈ Stmt.allBlocks (nested loops inner), B block := by
  induction loops with
  | nil => exact hinner
  | cons l rest ih =>
    obtain ⟨⟨hnone, hbefore, hafter⟩, hrest⟩ := List.forall_mem_cons.mp hloops
    obtain ⟨⟨hvar, hlast⟩, hvars⟩ := List.forall_mem_cons.mp hvars
    rw [nested, hafter, List.append_nil, Stmt.allBlocks, Stmt.blocks, Stmt.allBlocks, List.append_nil,
      List.forall_mem_cons, Stmt.allBlocks_append, List.forall_mem_append, declaredIn_append, hnone, List.nil_append]
    refine ⟨?_, hbefore, ih hrest hvars⟩
    cases rest with
    | nil => exact hlast
    | cons l' rest' => exact hvar

end TensorBridge
