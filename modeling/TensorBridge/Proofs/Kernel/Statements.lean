import TensorBridge.Proofs.Computation
import TensorBridge.Proofs.Conversion.Local

/-!
# The statements for an operand

A kernel fetches and converts each input and converts and allocates each output. Here these statements are taken
apart, and the calls in them are listed: an input is fetched once, an output is allocated on each branch, and all
functions that are called are helpers.
-/

namespace TensorBridge

open Conversion

/-- The statements that allocate an output and fill it. -/
def fillStatements (n : Names) (s : Shape) (index : Int) (values : Expr) : List Stmt :=
  (toTensor n s).sizes ++ [allocateTensor index n.tensorOut (toTensor n s).extents, .define "auto" n.dataOut values] ++
    (toTensor n s).body

/-- The statement that copies an output: a test where the value may be empty, a plain block elsewhere. -/
def copyStatement (n : Names) (s : Shape) (index : Int) (values : Expr) : Stmt :=
  if s.vectors.isEmpty then .scope (fillStatements n s index values)
  else .branch (.method (.name n.value) false "empty" []) [allocateTensor index n.tensorOut (emptyAllocation s)]
    (fillStatements n s index values)

/-- What follows the fetch of an input: the check of its rank, its values by index, and its conversion. -/
def afterFetch (n : Names) (s : Shape) (values : Expr) : List Stmt :=
  [requireRank n s, .define "auto" n.dataIn values] ++ tensorSizes n s ++ valueBody n s

section Statements

variable {name : String} {index : Int} {s : Shape} {stmts : List Stmt}

/-- The statements for an output, if there are any. -/
theorem outputStatements_eq (h : (outputStatements name index s).outcome = .ok stmts) :
    ∃ values, tensorValues (Names.tensorOut ⟨name⟩) true s = .ok values ∧
      stmts = [.define "Tensor*" (Names.tensorOut ⟨name⟩) (.name "nullptr"), copyStatement ⟨name⟩ s index values] := by
  obtain ⟨conversion, hconversion, h⟩ := Traced.outcome_bind_eq_ok.mp h
  cases hconversion
  obtain ⟨values, hvalues, h⟩ := Traced.outcome_bind_eq_ok.mp h
  cases h
  refine ⟨values, hvalues, ?_⟩
  rw [copyStatement]
  cases hempty : s.vectors.isEmpty with
  | true => simp [Conversion.of, toTensor, hempty, fillStatements]
  | false => simp [Conversion.of, toTensor, hempty, fillStatements]

/-- The statements for an input, if there are any. -/
theorem inputStatements_eq (h : (inputStatements name index s).outcome = .ok stmts) :
    ∃ values, tensorValues (Names.tensorIn ⟨name⟩) false s = .ok values ∧
      stmts = fetchTensor ⟨name⟩ index :: afterFetch ⟨name⟩ s values := by
  obtain ⟨conversion, hconversion, h⟩ := Traced.outcome_bind_eq_ok.mp h
  cases hconversion
  obtain ⟨values, hvalues, h⟩ := Traced.outcome_bind_eq_ok.mp h
  cases h
  exact ⟨values, hvalues, rfl⟩

/-! ## Calls in the statements for an input -/

/-- The statements for an input are local after its fetch. -/
theorem everyPart_afterFetch (n : Names) {values : Expr} (hvalues : tensorValues n.tensorIn false s = .ok values) :
    EveryPart (Expr.IsLocal n) (afterFetch n s values) := by
  have hrank : (requireRank n s).Every (Expr.IsLocal n) := by
    have hlocal {method : String} (hmethod : method ≠ "input" ∧ method ≠ "allocate_output") {base : Expr}
        (hbase : base.Every (Expr.IsLocal n)) : (Expr.method base false method []).Every (Expr.IsLocal n) :=
      Expr.every_method.mpr ⟨hmethod, hbase, List.forall_mem_nil _⟩
    have htensor : (Expr.name n.tensorIn).Every (Expr.IsLocal n) := Expr.every_name.mpr trivial
    apply every_requireThat
    · exact Expr.every_binary.mpr ⟨trivial, hlocal (by decide) htensor, Expr.every_int.mpr trivial⟩
    · apply every_invalidArgument
      exact List.forall_mem_singleton.mpr (hlocal (by decide) (hlocal (by decide) htensor))
  have hdefine : (Stmt.define "auto" n.dataIn values).Every (Expr.IsLocal n) := by
    simp [Stmt.define, every_tensorValues hvalues]
  rw [afterFetch, everyPart_append, everyPart_append, everyPart_cons, everyPart_cons]
  exact ⟨⟨⟨hrank, hdefine, everyPart_nil⟩, everyPart_tensorSizes n s⟩, everyPart_valueBody n s⟩

/-- An input is fetched once, into its own variable, and nothing is allocated for it. -/
theorem methodCalls_inputStatements (h : (inputStatements name index s).outcome = .ok stmts) :
    methodCalls "input" stmts = [(some (Names.tensorIn ⟨name⟩), [.int index])] ∧
      methodCalls "allocate_output" stmts = [] := by
  obtain ⟨values, hvalues, rfl⟩ := inputStatements_eq h
  have hlocal := everyPart_afterFetch ⟨name⟩ hvalues
  constructor
  · rw [methodCalls_cons, methodCalls_eq_nil hlocal (.inl rfl)]
    rfl
  · rw [methodCalls_cons, methodCalls_eq_nil hlocal (.inr rfl)]
    rfl

/-- The statements for an input call helpers only. -/
theorem functionCalls_inputStatements (h : (inputStatements name index s).outcome = .ok stmts) :
    ∀ call ∈ functionCalls stmts, ∃ helper ∈ Names.helpers ⟨name⟩, call.1 = .name helper := by
  obtain ⟨values, hvalues, rfl⟩ := inputStatements_eq h
  have hlocal := everyPart_afterFetch ⟨name⟩ hvalues
  rw [functionCalls_cons]
  exact helper_of_mem_functionCalls (hlocal.imp fun _ => Expr.IsLocal.callsHelper)

/-! ## Calls in the statements for an output -/

/-- The call that allocates an output. -/
def allocationCall (n : Names) (index : Int) (extents : List Expr) : Option String × List Expr :=
  (none, [.int index, .callNamed "TensorShape" [.initializer extents], .address (.name n.tensorOut)])

/-- The allocation of an output calls the context once. -/
theorem methodCalls_allocateTensor (n : Names) (index : Int) {extents : List Expr}
    (hextents : ∀ e ∈ extents, e.Every (Expr.IsLocal n)) :
    methodCalls "allocate_output" [allocateTensor index n.tensorOut extents] = [allocationCall n index extents] ∧
      methodCalls "input" [allocateTensor index n.tensorOut extents] = [] := by
  have hnone {called : String} (hcalled : called = "input" ∨ called = "allocate_output") :
      ∀ e ∈ Expr.allParts extents, e.methodArgs? called = none := fun e he =>
    (Expr.forall_mem_allParts.mpr hextents e he).methodArgs?_eq_none hcalled
  constructor
  · simpa [methodCalls, partsOf, Stmt.allRoots, Stmt.roots, allocateTensor, Expr.callNamed, Expr.parts, Expr.allParts,
      Expr.methodArgs?, allocationCall] using hnone (.inr rfl)
  · simpa [methodCalls, partsOf, Stmt.allRoots, Stmt.roots, allocateTensor, Expr.callNamed, Expr.parts, Expr.allParts,
      Expr.methodArgs?] using hnone (.inl rfl)

/-- The allocation of an output calls helpers only. -/
theorem everyPart_allocateTensor (n : Names) (index : Int) {extents : List Expr}
    (hextents : ∀ e ∈ extents, e.Every (Expr.IsLocal n)) :
    EveryPart (Expr.CallsHelper n) [allocateTensor index n.tensorOut extents] := by
  have hhelpers : ∀ e ∈ extents, e.Every (Expr.CallsHelper n) := fun e he =>
    (hextents e he).imp fun _ => Expr.IsLocal.callsHelper
  simpa [allocateTensor, Expr.callNamed, Expr.CallsHelper, Names.helpers] using hhelpers

/-- What a value is copied with, apart from the allocation, is local. -/
theorem everyPart_fill (n : Names) {values : Expr} (hvalues : tensorValues n.tensorOut true s = .ok values) :
    EveryPart (Expr.IsLocal n) (toTensor n s).sizes ∧
      EveryPart (Expr.IsLocal n) (.define "auto" n.dataOut values :: (toTensor n s).body) := by
  have hdefine : (Stmt.define "auto" n.dataOut values).Every (Expr.IsLocal n) := by
    simp [Stmt.define, every_tensorValues hvalues]
  exact ⟨everyPart_valueSizes n s, everyPart_cons.mpr ⟨hdefine, everyPart_tensorBody n s⟩⟩

/-- Filling an output allocates it once. -/
theorem methodCalls_fillStatements (n : Names) (index : Int) {values : Expr}
    (hvalues : tensorValues n.tensorOut true s = .ok values) :
    methodCalls "allocate_output" (fillStatements n s index values) = [allocationCall n index (allocatedExtents n s)] ∧
      methodCalls "input" (fillStatements n s index values) = [] := by
  obtain ⟨hsizes, hbody⟩ := everyPart_fill n hvalues
  obtain ⟨hallocate, hinput⟩ := methodCalls_allocateTensor n index (every_allocatedExtents n s)
  unfold fillStatements
  rw [List.append_assoc, List.cons_append, List.singleton_append]
  constructor
  · rw [methodCalls_append, methodCalls_cons, methodCalls_eq_nil hsizes (.inr rfl), methodCalls_eq_nil hbody (.inr rfl),
      List.nil_append, List.append_nil]
    exact hallocate
  · rw [methodCalls_append, methodCalls_cons, methodCalls_eq_nil hsizes (.inl rfl), methodCalls_eq_nil hbody (.inl rfl),
      List.nil_append, List.append_nil]
    exact hinput

/-- Filling an output calls helpers only. -/
theorem everyPart_fillStatements (n : Names) (index : Int) {values : Expr}
    (hvalues : tensorValues n.tensorOut true s = .ok values) :
    EveryPart (Expr.CallsHelper n) (fillStatements n s index values) := by
  obtain ⟨hsizes, hbody⟩ := everyPart_fill n hvalues
  have hallocate := everyPart_allocateTensor n index (every_allocatedExtents n s)
  unfold fillStatements
  rw [List.append_assoc, List.cons_append, List.singleton_append, everyPart_append, everyPart_cons]
  exact ⟨hsizes.imp fun _ => Expr.IsLocal.callsHelper, (everyPart_cons.mp hallocate).1,
    hbody.imp fun _ => Expr.IsLocal.callsHelper⟩

/-- The test for an empty value is local. -/
theorem everyPart_emptyTest (n : Names) :
    EveryPart (Expr.IsLocal n) [.eval (.method (.name n.value) false "empty" [])] := by
  simp [Expr.IsLocal]

/-- The extents that an output is allocated with, branch by branch. -/
def allocatedWith (n : Names) (s : Shape) : List (List Expr) :=
  if s.vectors.isEmpty then [allocatedExtents n s] else [emptyAllocation s, allocatedExtents n s]

/-- An output is allocated once on each branch, under its own index and into its own variable, and nothing is fetched
for it. -/
theorem methodCalls_outputStatements (h : (outputStatements name index s).outcome = .ok stmts) :
    methodCalls "allocate_output" stmts = (allocatedWith ⟨name⟩ s).map (allocationCall ⟨name⟩ index) ∧
      methodCalls "input" stmts = [] := by
  obtain ⟨values, hvalues, rfl⟩ := outputStatements_eq h
  obtain ⟨hfill, hfill'⟩ := methodCalls_fillStatements ⟨name⟩ index hvalues
  obtain ⟨hempty, hempty'⟩ := methodCalls_allocateTensor ⟨name⟩ index (every_emptyAllocation ⟨name⟩ s)
  have hcopy (called : String) :
      methodCalls called [.define "Tensor*" (Names.tensorOut ⟨name⟩) (.name "nullptr"),
        copyStatement ⟨name⟩ s index values] = methodCalls called [copyStatement ⟨name⟩ s index values] := by
    rw [methodCalls_cons]
    rfl
  rw [hcopy, hcopy, allocatedWith, copyStatement]
  split
  · rw [methodCalls_scope, methodCalls_scope, hfill, hfill']
    exact ⟨rfl, rfl⟩
  · rw [methodCalls_branch, methodCalls_branch, hfill, hfill', hempty, hempty',
      methodCalls_eq_nil (everyPart_emptyTest ⟨name⟩) (.inl rfl),
      methodCalls_eq_nil (everyPart_emptyTest ⟨name⟩) (.inr rfl)]
    exact ⟨rfl, rfl⟩

/-- The statements for an output call helpers only. -/
theorem functionCalls_outputStatements (h : (outputStatements name index s).outcome = .ok stmts) :
    ∀ call ∈ functionCalls stmts, ∃ helper ∈ Names.helpers ⟨name⟩, call.1 = .name helper := by
  obtain ⟨values, hvalues, rfl⟩ := outputStatements_eq h
  apply helper_of_mem_functionCalls
  have hfill := everyPart_fillStatements ⟨name⟩ index hvalues
  have hempty := everyPart_allocateTensor ⟨name⟩ index (every_emptyAllocation ⟨name⟩ s)
  have hpointer : (Stmt.define "Tensor*" (Names.tensorOut ⟨name⟩) (.name "nullptr")).Every
      (Expr.CallsHelper ⟨name⟩) := by
    simp [Stmt.define, Expr.CallsHelper]
  rw [everyPart_cons, everyPart_cons, copyStatement]
  refine ⟨hpointer, ?_, everyPart_nil⟩
  split
  · exact Stmt.every_scope.mpr hfill
  · have htest := (everyPart_emptyTest ⟨name⟩).imp fun _ => Expr.IsLocal.callsHelper
    exact Stmt.every_branch.mpr ⟨Stmt.every_eval.mp (everyPart_cons.mp htest).1, hempty, hfill⟩

/-! ## Calls in the call of the user's function -/

/-- The parts of the statements around the call of the user's function are those of the call. -/
theorem partsOf_callStatements (function : String) (outputs : List (String × Shape))
    (arguments : List (Int × String)) :
    partsOf (callStatements function outputs arguments) =
      partsOf [.eval (.callNamed function ((sortBy Prod.fst arguments).map fun x => .name x.2))] := by
  have hdeclared : partsOf (outputs.map fun x => .plain x.2.declaredType (Names.value ⟨x.1⟩)) = [] := by
    induction outputs with
    | nil => rfl
    | cons x rest ih => exact ih
  rw [callStatements, partsOf_append]
  change partsOf (outputs.map fun x => .plain x.2.declaredType (Names.value ⟨x.1⟩)) ++ _ = _
  rw [hdeclared]
  rfl

/-- The arguments of the call of the user's function are names, and calling is all that it does. -/
theorem partsOf_callNamed (function : String) (names : List (Int × String)) :
    partsOf [.eval (.callNamed function (names.map fun x => .name x.2))] =
      (none, .callNamed function (names.map fun x => .name x.2)) :: (none, .name function) ::
        names.map fun x => (none, .name x.2) := by
  have hnames : Expr.allParts (names.map fun x => .name x.2) = names.map fun x => .name x.2 := by
    induction names with
    | nil => rfl
    | cons x rest ih => rw [List.map_cons, Expr.allParts, ih, Expr.parts, List.singleton_append]
  simp [partsOf, Stmt.allRoots, Stmt.roots, Expr.callNamed, Expr.parts, hnames]

/-- The statements around the call of the user's function call it once, and call nothing else. -/
theorem functionCalls_callStatements (function : String) (outputs : List (String × Shape))
    (arguments : List (Int × String)) :
    functionCalls (callStatements function outputs arguments) =
      [(.name function, (sortBy Prod.fst arguments).map fun x => .name x.2)] := by
  rw [functionCalls, partsOf_callStatements, partsOf_callNamed]
  simp [Expr.callNamed, Expr.call?, List.filterMap_map]

/-- Nothing is fetched or allocated around the call of the user's function. -/
theorem methodCalls_callStatements (called function : String) (outputs : List (String × Shape))
    (arguments : List (Int × String)) : methodCalls called (callStatements function outputs arguments) = [] := by
  rw [methodCalls, partsOf_callStatements, partsOf_callNamed]
  simp [Expr.callNamed, Expr.methodArgs?, List.filterMap_map]

end Statements

end TensorBridge
