import TensorBridge.Proofs.Conversion.Sites
import TensorBridge.Proofs.Cpp.Blocks

/-!
# What conversions declare

Each block of a conversion declares different variables, all of them parts of the operand. The value itself is
declared once, by the conversion from the tensor and outside all loops.
-/

namespace TensorBridge

/-- A block that declares different parts of an operand, but not its value. -/
def Names.IsOwnBlock (n : Names) (block : List String) : Prop :=
  ∃ parts : List Part, parts.Nodup ∧ Part.value ∉ parts ∧ block = parts.map n.part

/-- Statements that declare the given parts of an operand in the block that they stand in, and parts other than the
value in the blocks inside. -/
structure Names.Declares (n : Names) (parts : List Part) (stmts : List Stmt) : Prop where
  outside : declaredIn stmts = parts.map n.part
  inside : ∀ block ∈ Stmt.allBlocks stmts, n.IsOwnBlock block

/-- Statements in a row declare the parts of both. -/
theorem Names.Declares.append {n : Names} {parts parts' : List Part} {a b : List Stmt} (ha : n.Declares parts a)
    (hb : n.Declares parts' b) : n.Declares (parts ++ parts') (a ++ b) := by
  constructor
  · rw [declaredIn_append, ha.outside, hb.outside, List.map_append]
  · rw [Stmt.allBlocks_append]
    exact List.forall_mem_append.mpr ⟨ha.inside, hb.inside⟩

/-- If the declared parts differ, then no block declares a name twice. -/
theorem Names.Declares.nodup {n : Names} {parts : List Part} {stmts : List Stmt} (h : n.Declares parts stmts)
    (hparts : parts.Nodup) : ∀ block ∈ blocksOf stmts, block.Nodup := by
  have hmap {ps : List Part} (hps : ps.Nodup) : (ps.map n.part).Nodup := hps.map fun p q heq => n.part_inj.mp heq
  refine List.forall_mem_cons.mpr ⟨?_, fun block hblock => ?_⟩
  · rw [h.outside]
    exact hmap hparts
  · obtain ⟨ps, hps, _, rfl⟩ := h.inside block hblock
    exact hmap hps

namespace Conversion

section Blocks

variable {n : Names} {s : Shape}

/-- The declared sizes are parts of the operand. -/
theorem map_size (axes : List Nat) : axes.map (fun axis : Nat => n.size axis) = (axes.map Part.size).map n.part := by
  rw [List.map_map]
  exact List.map_congr_left fun axis _ => n.size_eq_part axis

/-- A block may declare nothing. -/
theorem isOwnBlock_nil : n.IsOwnBlock [] := ⟨[], List.nodup_nil, List.not_mem_nil, rfl⟩

/-- The body of a loop may declare nothing but the variable of the loop. -/
theorem isOwnBlock_index (axis : Nat) : n.IsOwnBlock [n.index axis] := by
  refine ⟨[.index axis], List.nodup_singleton _, by simp, ?_⟩
  rw [Names.index_eq_part]
  rfl

/-- The copy of elements opens no blocks. -/
theorem allBlocks_map_assign {β : Type} (items : List β) (target value : β → Expr) :
    Stmt.allBlocks (items.map fun item => .assign (target item) (value item)) = [] :=
  Stmt.allBlocks_eq_nil (List.forall_mem_map.mpr fun _ _ => rfl)

/-- The declarations of the sizes of a tensor open no blocks. -/
theorem allBlocks_tensorSizes (n : Names) (s : Shape) : Stmt.allBlocks (tensorSizes n s) = [] :=
  Stmt.allBlocks_eq_nil (forall_mem_tensorSizes (fun _ _ => rfl) fun _ _ _ _ => rfl)

/-- The declarations of the sizes of a value open no blocks. -/
theorem allBlocks_valueSizes (n : Names) (s : Shape) :
    Stmt.allBlocks (layerSizes n s ++ blockSizes n s (firstBlock n s)) = [] := by
  apply Stmt.allBlocks_eq_nil
  intro stmt hstmt
  rcases List.mem_append.mp hstmt with hstmt | hstmt
  · obtain ⟨axis, _, rfl⟩ := List.mem_map.mp hstmt
    rfl
  · obtain ⟨x, _, rfl⟩ := List.mem_map.mp hstmt
    rfl

/-- The blocks of plain loops whose innermost statements neither declare variables nor open blocks. -/
theorem isOwnBlock_plainLoops {first count : Nat} {inner : List Stmt} (hnone : declaredIn inner = [])
    (hblocks : Stmt.allBlocks inner = []) :
    ∀ block ∈ Stmt.allBlocks (nested (n.plainLoops first count) inner), n.IsOwnBlock block := by
  apply forall_mem_allBlocks_nested
  · exact List.forall_mem_map.mpr fun _ _ => ⟨rfl, List.forall_mem_nil _, rfl⟩
  · rw [hnone]
    exact List.forall_mem_map.mpr fun axis _ => ⟨isOwnBlock_index axis, isOwnBlock_index axis⟩
  · rw [hblocks]
    exact List.forall_mem_nil _

/-- The blocks of the loops over the layers. -/
theorem isOwnBlock_layerLoops {inner : List Stmt}
    (hvars : ∀ axis : Nat, n.IsOwnBlock (n.index axis :: declaredIn inner))
    (hinner : ∀ block ∈ Stmt.allBlocks inner, n.IsOwnBlock block) :
    ∀ block ∈ Stmt.allBlocks (nested (layerLoops n s) inner), n.IsOwnBlock block := by
  have hstart (axis : Nat) (extent : Extent) :
      ∀ block ∈ Stmt.allBlocks (layerStart n s axis extent), n.IsOwnBlock block := by
    unfold layerStart growth
    rw [Stmt.allBlocks_append, List.forall_mem_append, rowEnd_test]
    constructor
    · split
      · change ∀ block ∈ [[], []], n.IsOwnBlock block
        simp [isOwnBlock_nil]
      · exact List.forall_mem_nil _
    · split
      · exact List.forall_mem_nil _
      · exact List.forall_mem_nil _
  apply forall_mem_allBlocks_nested _ _ hinner
  · exact forall_mem_layerLoops fun axis extent => ⟨declaredIn_layerStart n s axis extent, hstart axis extent, rfl⟩
  · exact forall_mem_layerLoops fun axis _ => ⟨isOwnBlock_index axis, hvars axis⟩

/-- The blocks of the copy into a block. -/
theorem isOwnBlock_fillBlock (block : String) :
    ∀ b ∈ Stmt.allBlocks (fillBlock n s block), n.IsOwnBlock b :=
  isOwnBlock_plainLoops (declaredIn_eq_nil_iff.mpr (List.forall_mem_map.mpr fun _ _ => rfl))
    (allBlocks_map_assign _ _ _)

/-- The declarations around a block open none. -/
theorem blocks_declareBlock (s : Shape) (name extents : String) : (declareBlock s name extents).blocks = [] := by
  unfold declareBlock
  split <;> rfl

/-- The declaration of extents opens no block. -/
theorem allBlocks_declareExtents (n : Names) (s : Shape) (name : String) :
    Stmt.allBlocks (declareExtents n s name) = [] := by
  unfold declareExtents
  split <;> rfl

/-- The declaration of the outermost vector opens no block. -/
theorem blocks_declareVectors (n : Names) (s : Shape) : (declareVectors n s).blocks = [] := by
  unfold declareVectors
  split <;> rfl

/-- The blocks inside the conversion to a value. -/
theorem isOwnBlock_valueBody (n : Names) (s : Shape) :
    ∀ block ∈ Stmt.allBlocks (valueBody n s), n.IsOwnBlock block := by
  unfold valueBody
  cases s.kind with
  | scalar => exact List.forall_mem_nil _
  | vectorOfPrimitive =>
    dsimp only
    rw [Stmt.allBlocks, blocks_declareVectors, List.nil_append]
    exact isOwnBlock_layerLoops isOwnBlock_index (List.forall_mem_nil _)
  | vectorOfMatrix =>
    dsimp only
    rw [Stmt.allBlocks_append, Stmt.allBlocks, blocks_declareVectors, allBlocks_declareExtents, List.nil_append,
      List.nil_append]
    apply isOwnBlock_layerLoops
    · intro axis
      have hdeclared : declaredIn (declareBlock s n.block n.blockShape :: fillBlock n s n.block ++
          [append n s (.name n.block)]) = [n.block] := by
        rw [declaredIn_append, declaredIn_cons_of_some (declared?_declareBlock s _ _), declaredIn_fillBlock]
        rfl
      refine ⟨[.index axis, .block], by simp, by simp, ?_⟩
      rw [hdeclared, Names.index_eq_part]
      rfl
    · rw [List.cons_append, Stmt.allBlocks, blocks_declareBlock, Stmt.allBlocks_append, List.nil_append,
        List.forall_mem_append]
      exact ⟨isOwnBlock_fillBlock n.block, List.forall_mem_nil _⟩
  | matrix =>
    dsimp only
    rw [Stmt.allBlocks_append, Stmt.allBlocks, allBlocks_declareExtents, blocks_declareBlock, List.nil_append,
      List.nil_append]
    exact isOwnBlock_fillBlock n.value

/-- What the conversion to a value declares outside all loops: the value, and the extents of a block whose container
takes them. -/
def valueParts (s : Shape) : List Part :=
  let extents (p : Part) : List Part := if s.element.container.isFixed then [] else [p]
  match s.kind with
  | .scalar => [.value]
  | .vectorOfPrimitive => [.value]
  | .vectorOfMatrix => .value :: extents .blockShape
  | .matrix => extents .shape ++ [.value]

/-- The conversion to a value declares these parts. -/
theorem declaredIn_valueBody (n : Names) (s : Shape) : declaredIn (valueBody n s) = (valueParts s).map n.part := by
  have hextents (p : Part) : declaredIn (declareExtents n s (n.part p)) =
      (if s.element.container.isFixed then [] else [p]).map n.part := by
    rw [declaredIn_declareExtents]
    split <;> rfl
  have hlayers (inner : List Stmt) (hinner : s.vectors = [] → declaredIn inner = []) :
      declaredIn (nested (layerLoops n s) inner) = [] := by
    rw [layerLoops_eq]
    cases hvectors : s.vectors with
    | nil => exact hinner hvectors
    | cons extent rest => exact declaredIn_nested_cons _ _ inner
  unfold valueBody valueParts
  cases hkind : s.kind with
  | scalar => rfl
  | vectorOfPrimitive =>
    dsimp only
    rw [declaredIn_cons_of_some (declared?_declareVectors n s), hlayers _ fun _ => rfl]
    rfl
  | vectorOfMatrix =>
    dsimp only
    have hsome : s.vectors ≠ [] := by
      intro hvectors
      simp only [Shape.kind, hvectors, List.isEmpty_nil, if_true] at hkind
      split at hkind <;> cases hkind
    rw [declaredIn_append, declaredIn_cons_of_some (declared?_declareVectors n s),
      hlayers _ fun hvectors => absurd hvectors hsome, List.append_nil]
    exact congrArg (n.value :: ·) (hextents .blockShape)
  | matrix =>
    dsimp only
    rw [declaredIn_append, declaredIn_cons_of_some (declared?_declareBlock s _ _), declaredIn_fillBlock,
      List.map_append]
    exact congrArg (· ++ [n.value]) (hextents .shape)

/-- They are different, and the value is one of them. -/
theorem valueParts_nodup (s : Shape) : (valueParts s).Nodup ∧ Part.value ∈ valueParts s := by
  unfold valueParts
  cases s.kind <;> cases s.element.container.isFixed <;> decide

/-- They are the value and names for extents. -/
theorem valueParts_subset (s : Shape) : valueParts s ⊆ [.value, .shape, .blockShape] := by
  unfold valueParts
  cases s.kind <;> cases s.element.container.isFixed <;> decide

/-- The blocks inside the copy of a value. -/
theorem isOwnBlock_tensorBody (n : Names) (s : Shape) :
    ∀ block ∈ Stmt.allBlocks (nested (n.plainLoops 0 s.rank) (copyInnermost n s)), n.IsOwnBlock block := by
  have hinner : declaredIn (copyInnermost n s) = [] ∧ Stmt.allBlocks (copyInnermost n s) = [] := by
    unfold copyInnermost
    split
    · exact ⟨declaredIn_eq_nil_iff.mpr (List.forall_mem_map.mpr fun _ _ => rfl), allBlocks_map_assign _ _ _⟩
    · exact ⟨rfl, rfl⟩
  exact isOwnBlock_plainLoops hinner.1 hinner.2

/-- The copy of a value declares nothing outside its loops. -/
theorem declaredIn_tensorBody (n : Names) (s : Shape) :
    declaredIn (nested (n.plainLoops 0 s.rank) (copyInnermost n s)) = [] := by
  cases n.plainLoops 0 s.rank with
  | nil =>
    change declaredIn (copyInnermost n s) = []
    unfold copyInnermost
    split
    · exact declaredIn_eq_nil_iff.mpr (List.forall_mem_map.mpr fun _ _ => rfl)
    · rfl
  | cons l rest => exact declaredIn_nested_cons l rest _

end Blocks

end Conversion

end TensorBridge
