import TensorBridge.Proofs.Conversion.Sites
import TensorBridge.Proofs.Kernel.Statements

/-!
# What the statements for an operand evaluate, and where

The statements that fetch and convert an input declare everything that they use. Those that convert and allocate an
output use the operand's value, which they do not declare, and nothing else from outside.
-/

namespace TensorBridge

open Conversion

/-- An expression that is sound with some methods. -/
def Site.IsPlaced (n : Names) (s : Shape) (site : Site) : Prop := ∃ methods, site.IsSound n s methods

section Statements

variable {n : Names} {s : Shape} {around : List Binding}

/-- Expressions that are sound with the same methods are placed. -/
theorem EverySite.isPlaced {methods : List String} {stmts : List Stmt}
    (h : EverySite (Site.IsSound n s methods) around stmts) : EverySite (Site.IsPlaced n s) around stmts :=
  fun site hsite => ⟨methods, h site hsite⟩

/-- Placed statements are resolved. -/
theorem EverySite.isResolved_of_isPlaced {stmts : List Stmt} (h : EverySite (Site.IsPlaced n s) around stmts) :
    EverySite Site.IsResolved around stmts := by
  intro site hsite
  obtain ⟨methods, hsound⟩ := h site hsite
  exact hsound.isResolved

/-- A declaration with a value is placed if the value is sound. -/
theorem holdsAt_declareValue {methods : List String} {constant : Bool} {type name : String} {value : Expr}
    (h : value.Every (Expr.IsSound n s methods around)) :
    (Stmt.declare constant false type name [] (some value)).HoldsAt (Site.IsPlaced n s) around := by
  refine Stmt.holdsAt_declare.mpr ⟨List.forall_mem_nil _, ?_⟩
  rintro e ⟨⟩
  exact ⟨methods, .inl h⟩

/-- The values of a tensor are placed where the tensor is declared. -/
theorem holdsAt_defineValues {tensor name : String} {arrow : Bool} {values : Expr}
    (hvalues : tensorValues tensor arrow s = .ok values) (htensor : tensor ∈ around.map Binding.name) :
    (Stmt.define "auto" name values).HoldsAt (Site.IsPlaced n s) around := by
  obtain ⟨scalar, _, rfl⟩ := except_map_eq_ok.mp hvalues
  exact holdsAt_declareValue (Expr.every_method.mpr
    ⟨List.mem_singleton_self _, Expr.every_isSound_name htensor, List.forall_mem_nil _⟩)

/-- The check of a tensor's rank is placed where the tensor is declared. -/
theorem holdsAt_requireRank (htensor : n.tensorIn ∈ around.map Binding.name) :
    (requireRank n s).HoldsAt (Site.IsPlaced n s) around := by
  have hmethods {e : Expr} {method : String} (hmethod : method ∈ ["dims", "shape", "DebugString"])
      (he : e.Every (Expr.IsSound n s ["dims", "shape", "DebugString"] around)) :
      (Expr.method e false method []).Every (Expr.IsSound n s ["dims", "shape", "DebugString"] around) :=
    Expr.every_method.mpr ⟨hmethod, he, List.forall_mem_nil _⟩
  have hname : (Expr.name n.tensorIn).Every (Expr.IsSound n s ["dims", "shape", "DebugString"] around) :=
    Expr.every_isSound_name htensor
  have hrequire : (requireRank n s).HoldsAt (Site.IsSound n s ["dims", "shape", "DebugString"]) around := by
    apply holdsAt_requireThat
    · exact Expr.every_binary.mpr ⟨trivial, hmethods (by decide) hname, Expr.every_isSound_count _⟩
    · apply isSound_invalidArgument
      exact List.forall_mem_singleton.mpr (hmethods (by decide) (hmethods (by decide) hname))
  exact fun site hsite => ⟨_, hrequire site hsite⟩

/-- The sizes that some statements declare are known after them. -/
theorem size_mem_names {stmts : List Stmt} {count : Nat}
    (hdeclared : declaredIn stmts = (List.range count).map fun axis : Nat => n.size axis) {axis : Nat}
    (haxis : axis < count) : n.size axis ∈ (around ++ bindings stmts).map Binding.name := by
  rw [List.map_append, map_name_bindings, hdeclared]
  exact List.mem_append_right _ (List.mem_map.mpr ⟨axis, List.mem_range.mpr haxis, rfl⟩)

/-- No loop is open at the outermost level. -/
theorem Names.counts_nil (n : Names) : n.Counts [] 0 := fun _ => rfl

variable {name : String} {index : Int} {stmts : List Stmt}

/-- The statements for an input are placed, from the outermost level on. -/
theorem everySite_inputStatements (h : (inputStatements name index s).outcome = .ok stmts) :
    EverySite (Site.IsPlaced ⟨name⟩ s) [] stmts := by
  obtain ⟨values, hvalues, rfl⟩ := inputStatements_eq h
  let n : Names := ⟨name⟩
  have hfetch : (fetchTensor n index).HoldsAt (Site.IsPlaced n s) [] := by
    have hcall : (Expr.method (.name "context") true "input" [.int index]).Every (Expr.IsSound n s ["input"] []) :=
      Expr.every_method.mpr ⟨List.mem_singleton_self _, Expr.every_isSound_of_not_plausible (by decide),
        List.forall_mem_singleton.mpr (Expr.every_int.mpr trivial)⟩
    exact holdsAt_declareValue hcall
  have htensor : n.tensorIn ∈ ([Binding.declared n.tensorIn]).map Binding.name := List.mem_singleton_self _
  have hdata : n.dataIn ∈ ([Binding.declared n.tensorIn] ++ [Binding.declared n.dataIn]).map Binding.name := by
    simp [Binding.name]
  have hdeclared := declaredIn_tensorSizes n s
  have hcounts : n.Counts ([.declared n.tensorIn] ++ [.declared n.dataIn]) 0 :=
    (n.counts_nil.declare (p := .tensorIn) (by simp)).declare (p := .dataIn) (by simp)
  refine everySite_cons.mpr ⟨hfetch, ?_⟩
  change EverySite _ [.declared n.tensorIn] (_ ++ _ ++ _)
  rw [List.append_assoc, everySite_append]
  refine ⟨everySite_cons.mpr ⟨holdsAt_requireRank htensor, ?_⟩, everySite_append.mpr ⟨?_, ?_⟩⟩
  · exact everySite_cons.mpr ⟨holdsAt_defineValues hvalues htensor, everySite_nil⟩
  · exact (everySite_tensorSizes (mem_names_append htensor _)).isPlaced
  · refine (allSound_valueBody (hcounts.declareSizes hdeclared) ?_ (mem_names_append hdata _)).isPlaced
    exact fun axis haxis => size_mem_names hdeclared (Nat.lt_of_lt_of_le haxis (Nat.le_add_right _ _))

/-- The allocation of an output is placed where its tensor is declared. -/
theorem holdsAt_allocateTensor {extents : List Expr} (htensor : n.tensorOut ∈ around.map Binding.name)
    (hextents : ∀ e ∈ extents, e.Every (Expr.IsSound n s ["allocate_output"] around)) :
    (allocateTensor index n.tensorOut extents).HoldsAt (Site.IsPlaced n s) around := by
  have hcontext : (Expr.name "context").Every (Expr.IsSound n s ["allocate_output"] around) :=
    Expr.every_isSound_of_not_plausible (by decide)
  have hshape : (Expr.callNamed "TensorShape" [.initializer extents]).Every
      (Expr.IsSound n s ["allocate_output"] around) := by
    apply Expr.every_isSound_callNamed (by decide)
    exact List.forall_mem_singleton.mpr (Expr.every_initializer.mpr ⟨trivial, hextents⟩)
  have haddress : (Expr.address (.name n.tensorOut)).Every (Expr.IsSound n s ["allocate_output"] around) :=
    Expr.every_address.mpr ⟨trivial, Expr.every_isSound_name htensor⟩
  have hargs : ∀ e ∈ [Expr.int index, .callNamed "TensorShape" [.initializer extents], .address (.name n.tensorOut)],
      e.Every (Expr.IsSound n s ["allocate_output"] around) := by
    simp only [List.forall_mem_cons]
    exact ⟨Expr.every_int.mpr trivial, hshape, haddress, List.forall_mem_nil _⟩
  refine Stmt.holdsAt_eval.mpr ⟨_, .inl (Expr.every_isSound_callNamed (by decide) (List.forall_mem_cons.mpr
    ⟨hcontext, List.forall_mem_singleton.mpr ?_⟩))⟩
  exact Expr.every_method.mpr ⟨List.mem_singleton_self _, hcontext, hargs⟩

/-- The extents that a tensor is allocated with are sound where the sizes are declared. -/
theorem isSound_allocatedExtents {methods : List String}
    (hsizes : ∀ axis < s.rank, n.size axis ∈ around.map Binding.name) :
    ∀ e ∈ allocatedExtents n s, e.Every (Expr.IsSound n s methods around) := by
  rw [allocatedExtents, List.forall_mem_append]
  exact ⟨Expr.every_isSound_sizes fun axis haxis => hsizes axis (by omega), Expr.every_replicate_count trivial⟩

/-- The extents of the tensor of an empty value are sound. -/
theorem isSound_emptyAllocation {methods : List String} :
    ∀ e ∈ emptyAllocation s, e.Every (Expr.IsSound n s methods around) := by
  rw [emptyAllocation, List.forall_mem_append, List.forall_mem_cons, List.forall_mem_map]
  exact ⟨⟨Expr.every_isSound_count 0, fun _ _ => Expr.every_isSound_count _⟩, Expr.every_replicate_count trivial⟩

/-- The statements that fill an output are placed where the tensor and the value are declared. -/
theorem everySite_fillStatements {values : Expr} (hvalues : tensorValues n.tensorOut true s = .ok values)
    (hcounts : n.Counts around 0) (htensor : n.tensorOut ∈ around.map Binding.name)
    (hvalue : n.value ∈ around.map Binding.name) :
    EverySite (Site.IsPlaced n s) around (fillStatements n s index values) := by
  have hdeclared : declaredIn (toTensor n s).sizes = (List.range s.rank).map fun axis : Nat => n.size axis :=
    declaredIn_valueSizes n s
  have hsizes : ∀ axis < s.rank, n.size axis ∈ (around ++ bindings (toTensor n s).sizes).map Binding.name :=
    fun axis haxis => size_mem_names hdeclared haxis
  have hsized := hcounts.declareSizes hdeclared
  have hallocate : (allocateTensor index n.tensorOut (toTensor n s).extents).HoldsAt (Site.IsPlaced n s)
      (around ++ bindings (toTensor n s).sizes) :=
    holdsAt_allocateTensor (mem_names_append htensor _) (isSound_allocatedExtents hsizes)
  have hdefine : (Stmt.define "auto" n.dataOut values).HoldsAt (Site.IsPlaced n s)
      (around ++ bindings (toTensor n s).sizes) :=
    holdsAt_defineValues hvalues (mem_names_append htensor _)
  have hdata : n.dataOut ∈
      ((around ++ bindings (toTensor n s).sizes) ++ [Binding.declared n.dataOut]).map Binding.name := by
    simp [Binding.name]
  unfold fillStatements
  rw [List.append_assoc, everySite_append, everySite_append]
  refine ⟨(allSound_valueSizes hvalue).isPlaced, everySite_cons.mpr ⟨hallocate, ?_⟩, ?_⟩
  · have hnone : bindings [allocateTensor index n.tensorOut (toTensor n s).extents] = [] := rfl
    rw [hnone, List.append_nil]
    exact everySite_cons.mpr ⟨hdefine, everySite_nil⟩
  · refine (allSound_tensorBody (hsized.declare (p := .dataOut) (by simp)) ?_ hdata ?_).isPlaced
    · exact fun axis haxis => mem_names_append (hsizes axis haxis) _
    · exact mem_names_append (mem_names_append hvalue _) _

/-- The statements for an output are placed where the operand's value is declared. -/
theorem everySite_outputStatements (h : (outputStatements name index s).outcome = .ok stmts) :
    EverySite (Site.IsPlaced ⟨name⟩ s) [.declared (Names.value ⟨name⟩)] stmts := by
  obtain ⟨values, hvalues, rfl⟩ := outputStatements_eq h
  let n : Names := ⟨name⟩
  have hcounts : n.Counts ([.declared n.value] ++ [.declared n.tensorOut]) 0 :=
    (n.counts_nil.declare (p := .value) (by simp)).declare (p := .tensorOut) (by simp)
  have htensor : n.tensorOut ∈ ([Binding.declared n.value] ++ [Binding.declared n.tensorOut]).map Binding.name := by
    simp [Binding.name]
  have hvalue : n.value ∈ ([Binding.declared n.value] ++ [Binding.declared n.tensorOut]).map Binding.name := by
    simp [Binding.name]
  have hfill : EverySite (Site.IsPlaced n s) ([.declared n.value] ++ [.declared n.tensorOut])
      (fillStatements n s index values) := everySite_fillStatements hvalues hcounts htensor hvalue
  have hnull : (Expr.name "nullptr").Every (Expr.IsSound n s [] [.declared n.value]) :=
    Expr.every_isSound_of_not_plausible (by decide)
  refine everySite_cons.mpr ⟨holdsAt_declareValue hnull, everySite_cons.mpr ⟨?_, everySite_nil⟩⟩
  unfold copyStatement
  split
  · exact Stmt.holdsAt_scope.mpr hfill
  · have hempty : "empty" ∈ valueMethods := by decide
    have htest : (Expr.method (.name n.value) false "empty" []).Every
        (Expr.IsSound n s valueMethods ([.declared n.value] ++ [.declared n.tensorOut])) :=
      Expr.every_method.mpr ⟨hempty, Expr.every_isSound_name hvalue, List.forall_mem_nil _⟩
    refine Stmt.holdsAt_branch.mpr ⟨⟨_, .inl htest⟩, ?_, hfill⟩
    exact everySite_cons.mpr ⟨holdsAt_allocateTensor htensor isSound_emptyAllocation, everySite_nil⟩

end Statements

end TensorBridge
