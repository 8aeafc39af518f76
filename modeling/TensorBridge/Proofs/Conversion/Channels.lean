import TensorBridge.Conversion.Build
import TensorBridge.Proofs.Conversion.Sizes
import TensorBridge.Proofs.Cpp.Assignments

/-!
# Copies of channels

An element of several channels is copied by one assignment for each channel, inside the same loops. The list of a
conversion's assignments shows which channel of the element goes with which of the tensor.
-/

namespace TensorBridge

/-- The channel of a block's element that an expression is, if it is one. -/
def Expr.elementChannel? : Expr → Option Int
  | .subscript (.element _ _ _ _) (.int channel) => some channel
  | _ => none

/-- The number that an expression writes out. -/
def Expr.literal? : Expr → Option Int
  | .int value => some value
  | _ => none

/-- The number in the last place of an access to some values. -/
def Expr.lastIndex? (data : String) : Expr → Option Int
  | .call (.name function) index => if function = data then index.getLast?.bind literal? else none
  | _ => none

namespace Conversion

variable {n : Names} {s : Shape}

/-- The two sides of the copy of an element have the same channel, and each channel has its turn. -/
theorem channels_elementPairs (hseveral : 1 < s.element.channels) (block : Expr) (data : String) :
    (elementPairs n s block data).map (fun pair => (pair.1.elementChannel?, pair.2.lastIndex? data)) =
      (List.range s.element.channels).map fun channel : Nat => (some (channel : Int), some (channel : Int)) := by
  have hone : s.element.channels ≠ 1 := by omega
  rw [elementPairs_eq, List.map_map]
  refine List.map_congr_left fun channel _ => Prod.ext ?_ ?_
  · simp [elementExpr, hone, Expr.elementChannel?, Expr.count]
  · simp [datumExpr, Shape.channelIndex, hone, Expr.callNamed, Expr.lastIndex?, Expr.count, Expr.literal?]

/-- The declarations and requirements of sizes assign nothing. -/
theorem allAssignments_sizes (n : Names) (s : Shape) :
    Stmt.allAssignments (tensorSizes n s) = [] ∧ Stmt.allAssignments (toTensor n s).sizes = [] := by
  constructor
  · exact Stmt.allAssignments_eq_nil (forall_mem_tensorSizes (fun _ _ => rfl) fun _ _ _ _ => rfl)
  · apply Stmt.allAssignments_eq_nil
    rw [toTensor, List.forall_mem_append]
    exact ⟨List.forall_mem_map.mpr fun _ _ => rfl, List.forall_mem_map.mpr fun _ _ => rfl⟩

/-- Plain loops around an inner part have the assignments of this part. -/
theorem allAssignments_plainLoops (first count : Nat) (inner : List Stmt) :
    Stmt.allAssignments (nested (n.plainLoops first count) inner) = Stmt.allAssignments inner :=
  Stmt.allAssignments_nested (List.forall_mem_map.mpr fun _ _ => ⟨rfl, rfl⟩)

/-- The loops over the layers assign nothing themselves. -/
theorem allAssignments_layerLoops (inner : List Stmt) :
    Stmt.allAssignments (nested (layerLoops n s) inner) = Stmt.allAssignments inner := by
  refine Stmt.allAssignments_nested (forall_mem_layerLoops fun axis extent => ⟨?_, rfl⟩)
  exact Stmt.allAssignments_eq_nil (forall_mem_layerStart extent rfl rfl)

/-- Filling a block assigns the channels of its elements. -/
theorem allAssignments_fillBlock (block : String) :
    Stmt.allAssignments (fillBlock n s block) = elementPairs n s (.name block) n.dataIn := by
  rw [fillBlock, allAssignments_plainLoops, fillElement]
  exact Stmt.allAssignments_map_assign _

/-- The declarations in front of the copy assign nothing. -/
theorem assignments_declarations (n : Names) (s : Shape) (name extents : String) :
    (declareVectors n s).assignments = [] ∧ (declareBlock s name extents).assignments = [] ∧
      Stmt.allAssignments (declareExtents n s extents) = [] := by
  unfold declareVectors declareBlock declareExtents
  refine ⟨?_, ?_, ?_⟩ <;> split <;> rfl

/-- The conversion of a tensor to blocks assigns the channels of one element. -/
theorem allAssignments_valueBody (hmatrix : s.element.isMatrix = true) :
    ∃ block, Stmt.allAssignments (valueBody n s) = elementPairs n s block n.dataIn := by
  cases hempty : s.vectors.isEmpty with
  | true =>
    have hkind : s.kind = .matrix := by simp [Shape.kind, hmatrix, hempty]
    obtain ⟨_, hblock, hextents⟩ := assignments_declarations n s n.value n.shape
    refine ⟨.name n.value, ?_⟩
    rw [valueBody, hkind]
    dsimp only
    rw [Stmt.allAssignments_append, Stmt.allAssignments, hextents, hblock, allAssignments_fillBlock]
    rfl
  | false =>
    have hkind : s.kind = .vectorOfMatrix := by simp [Shape.kind, hmatrix, hempty]
    obtain ⟨hvectors, hblock, hextents⟩ := assignments_declarations n s n.block n.blockShape
    refine ⟨.name n.block, ?_⟩
    rw [valueBody, hkind]
    dsimp only
    rw [List.cons_append, Stmt.allAssignments, hvectors, Stmt.allAssignments_append, hextents, allAssignments_layerLoops,
      List.cons_append, Stmt.allAssignments, hblock, Stmt.allAssignments_append, allAssignments_fillBlock]
    exact List.append_nil _

/-- The conversion of blocks to a tensor assigns the channels of one element. -/
theorem allAssignments_tensorBody (hmatrix : s.hasBlock = true) :
    Stmt.allAssignments (toTensor n s).body = (elementPairs n s (currentBlock n s) n.dataOut).map Prod.swap := by
  have hpairs := Stmt.allAssignments_map_assign ((elementPairs n s (currentBlock n s) n.dataOut).map Prod.swap)
  rw [List.map_map] at hpairs
  rw [toTensor]
  dsimp only
  rw [allAssignments_plainLoops, copyInnermost, if_pos hmatrix]
  exact hpairs

end Conversion

end TensorBridge
