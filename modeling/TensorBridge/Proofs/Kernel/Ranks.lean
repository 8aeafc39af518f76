import TensorBridge.Proofs.Conversion.Channels
import TensorBridge.Proofs.Conversion.Outputs
import TensorBridge.Proofs.Kernel.Indices

/-!
# The rank of a tensor

The rank of an operand's tensor is worked out in many places: in the check of an input, in the maps of the tensors, in
the sizes that are read, in the inferred and the allocated extents, and in each index. All of them agree.
-/

namespace TensorBridge

open Conversion

/-! ## Checks and maps in statements -/

/-- The tensor and the number in a requirement on the number of its axes. -/
def Expr.rankCheck? : Expr → Option (String × Int)
  | .call (.name function) [_, .binary operator (.method (.name tensor) _ called []) (.int rank), _] =>
    if function = "OP_REQUIRES" ∧ operator = "==" ∧ called = "dims" then some (tensor, rank) else none
  | _ => none

/-- The requirements on the numbers of axes. -/
def rankChecks (stmts : List Stmt) : List (String × Int) :=
  (Stmt.allRoots stmts).filterMap fun root => root.2.rankCheck?

/-- How a tensor is looked at: as a row, or by an index of some axes. -/
inductive MapForm
  | flat
  | axes (rank : Nat)
deriving DecidableEq, Repr

/-- The way to look at a tensor of some axes. -/
def MapForm.ofRank : Nat → MapForm
  | 0 => .flat
  | rank + 1 => .axes (rank + 1)

/-- The way to look at a tensor that a method names. -/
def mapForm? (method : String) : Option MapForm :=
  match Template.ofChars method.toList with
  | ⟨name, [_]⟩ => if name = "flat".toList then some .flat else none
  | ⟨name, [_, axes]⟩ => if name = "tensor".toList then (readNumeral? axes).map .axes else none
  | _ => none

/-- The map that an expression makes. -/
def Expr.mapForm? : Expr → Option MapForm
  | .method _ _ called _ => TensorBridge.mapForm? called
  | _ => none

/-- The maps that are made, each with the variable that it is part of the declaration of. -/
def tensorMaps (stmts : List Stmt) : List (Option String × MapForm) :=
  (partsOf stmts).filterMap fun part => part.2.mapForm?.map fun form => (part.1, form)

/-- The checks in statements are those in each. -/
theorem rankChecks_append (a b : List Stmt) : rankChecks (a ++ b) = rankChecks a ++ rankChecks b := by
  rw [rankChecks, Stmt.allRoots_append, List.filterMap_append]
  rfl

/-- The maps in statements are those in each. -/
theorem tensorMaps_append (a b : List Stmt) : tensorMaps (a ++ b) = tensorMaps a ++ tensorMaps b := by
  rw [tensorMaps, partsOf_append, List.filterMap_append]
  rfl

/-- The maps in some statements are those in the first and in the others. -/
theorem tensorMaps_cons (s : Stmt) (rest : List Stmt) : tensorMaps (s :: rest) = tensorMaps [s] ++ tensorMaps rest :=
  tensorMaps_append [s] rest

section CallsOnly

variable {methods : List String} {stmts : List Stmt}

/-- Only methods that are called have calls. -/
theorem methodCalls_eq_nil_of_callsOnly (h : EveryPart (Expr.CallsOnly methods) stmts) {called : String}
    (hcalled : called ∉ methods) : methodCalls called stmts = [] := by
  apply List.filterMap_eq_nil_iff.mpr
  rintro ⟨target, e⟩ hpart
  have honly := h.of_mem hpart
  cases e with
  | method base arrow other args =>
    have hne : other ≠ called := fun heq => hcalled (heq ▸ honly)
    rw [Expr.methodArgs?, if_neg hne]
    rfl
  | _ => rfl

/-- Where the number of axes is not asked for, it is not required. -/
theorem rankChecks_eq_nil (h : EveryPart (Expr.CallsOnly methods) stmts) (hdims : "dims" ∉ methods) :
    rankChecks stmts = [] := by
  apply List.filterMap_eq_nil_iff.mpr
  rintro ⟨target, e⟩ hroot
  have honly : e.Every (Expr.CallsOnly methods) := h _ hroot
  dsimp only
  unfold Expr.rankCheck?
  split
  · next function condition operator tensor arrow called rank report =>
    -- The requirement has the call of the method in its condition.
    have hcondition := (Expr.every_call.mp honly).2.2
      (.binary operator (.method (.name tensor) arrow called []) (.int rank)) (by simp)
    have hcalled : called ∈ methods := (Expr.every_method.mp (Expr.every_binary.mp hcondition).2.1).1
    refine if_neg fun hcheck => hdims ?_
    rwa [← hcheck.2.2]
  · rfl

/-- Where no method for a map is called, no map is made. -/
theorem tensorMaps_eq_nil (h : EveryPart (Expr.CallsOnly methods) stmts)
    (hmethods : ∀ called ∈ methods, mapForm? called = none) : tensorMaps stmts = [] := by
  apply List.filterMap_eq_nil_iff.mpr
  rintro ⟨target, e⟩ hpart
  have honly := h.of_mem hpart
  cases e with
  | method base arrow called args =>
    dsimp only
    rw [Expr.mapForm?, hmethods called honly]
    rfl
  | _ => rfl

end CallsOnly

/-! ## What the parts of a conversion evaluate and call -/

namespace Conversion

variable (n : Names) (s : Shape)

/-- The declarations and requirements of a tensor's sizes ask for sizes only. -/
theorem callsOnly_tensorSizes : EveryPart (Expr.CallsOnly ["dim_size"]) (tensorSizes n s) := by
  have htensor : n.tensorIn ∈ ([Binding.declared n.tensorIn]).map Binding.name := List.mem_singleton_self _
  exact (everySite_tensorSizes htensor).everyPart fun _ => Site.IsSound.callsOnly

/-- The requirements on a tensor's sizes call no method. -/
theorem callsOnly_requirements : EveryPart (Expr.CallsOnly []) (fixedRequirements n s ++ channelRequirement n s) := by
  have hsizes : ∀ axis < s.tensorRank, n.size axis ∈ ([] ++ bindings (readSizes n s)).map Binding.name :=
    fun axis haxis => size_mem_names (declaredIn_readSizes n s) haxis
  exact (everySite_requirements hsizes).everyPart fun _ => Site.IsSound.callsOnly

/-- The sizes of a tensor's axes are read one after the other. -/
theorem methodCalls_readSizes : methodCalls "dim_size" (readSizes n s) =
    (List.range s.tensorRank).map fun axis : Nat => (some (n.size axis), [.count axis]) := by
  rw [readSizes]
  induction List.range s.tensorRank with
  | nil => rfl
  | cons axis rest ih =>
    rw [List.map_cons, methodCalls_cons, ih]
    rfl

/-- The conversion to a value is sound behind the declarations of the tensor's values and sizes. -/
theorem exists_allSound_valueBody : ∃ around, AllSound n s around (valueBody n s) := by
  have hcounts : n.Counts ([] ++ [.declared n.dataIn]) 0 := n.counts_nil.declare (p := .dataIn) (by simp)
  have hdata : n.dataIn ∈ ([] ++ [Binding.declared n.dataIn]).map Binding.name := List.mem_singleton_self _
  have hdeclared := declaredIn_tensorSizes n s
  refine ⟨_, allSound_valueBody (hcounts.declareSizes hdeclared) ?_ (mem_names_append hdata _)⟩
  exact fun axis haxis => size_mem_names hdeclared (Nat.lt_of_lt_of_le haxis (Nat.le_add_right _ _))

/-- The conversion to a tensor is sound behind the declarations of the value and the tensor's values. -/
theorem exists_allSound_toTensor :
    ∃ around, AllSound n s around (toTensor n s).sizes ∧
      ∃ around, AllSound n s around (toTensor n s).body := by
  have hcounts : n.Counts ([.declared n.value] ++ [.declared n.dataOut]) 0 :=
    (n.counts_nil.declare (p := .value) (by simp)).declare (p := .dataOut) (by simp)
  have hvalue : n.value ∈ ([Binding.declared n.value] ++ [Binding.declared n.dataOut]).map Binding.name := by
    simp [Binding.name]
  have hdata : n.dataOut ∈ ([Binding.declared n.value] ++ [Binding.declared n.dataOut]).map Binding.name := by
    simp [Binding.name]
  have hdeclared := declaredIn_valueSizes n s
  refine ⟨_, allSound_valueSizes hvalue, _, allSound_tensorBody (hcounts.declareSizes hdeclared) ?_
    (mem_names_append hdata _) (mem_names_append hvalue _)⟩
  exact fun axis haxis => size_mem_names hdeclared haxis

/-- The conversion to a value calls methods of values only. -/
theorem callsOnly_valueBody : EveryPart (Expr.CallsOnly valueMethods) (valueBody n s) := by
  obtain ⟨_, hbody⟩ := exists_allSound_valueBody n s
  exact hbody.everyPart fun _ => Site.IsSound.callsOnly

/-- The conversion to a tensor calls methods of values only. -/
theorem callsOnly_toTensor :
    EveryPart (Expr.CallsOnly valueMethods) (toTensor n s).sizes ∧
      EveryPart (Expr.CallsOnly valueMethods) (toTensor n s).body := by
  obtain ⟨_, hsizes, _, hbody⟩ := exists_allSound_toTensor n s
  exact ⟨hsizes.everyPart fun _ => Site.IsSound.callsOnly, hbody.everyPart fun _ => Site.IsSound.callsOnly⟩

/-- The allocation of an output calls one method, of the context. -/
theorem callsOnly_allocateTensor (index : Int) (x : String) {extents : List Expr}
    (hextents : ∀ e ∈ extents, e.Every (Expr.CallsOnly ["allocate_output"])) :
    EveryPart (Expr.CallsOnly ["allocate_output"]) [allocateTensor index x extents] := by
  simpa [allocateTensor, Expr.callNamed, Expr.CallsOnly] using hextents

/-- The extents that outputs are allocated with call no method. -/
theorem callsOnly_extents {methods : List String} :
    (∀ e ∈ allocatedExtents n s, e.Every (Expr.CallsOnly methods)) ∧
      ∀ e ∈ emptyAllocation s, e.Every (Expr.CallsOnly methods) := by
  rw [allocatedExtents, emptyAllocation, List.forall_mem_append, List.forall_mem_append, List.forall_mem_cons]
  refine ⟨⟨List.forall_mem_map.mpr fun _ _ => Expr.every_name.mpr trivial, Expr.every_replicate_count trivial⟩,
    ⟨?_, ?_⟩, Expr.every_replicate_count trivial⟩
  · exact Expr.every_int.mpr trivial
  · exact List.forall_mem_map.mpr fun _ _ => Expr.every_int.mpr trivial

end Conversion

/-! ## The map of a tensor -/

/-- The method for the map of a tensor names the tensor's rank. -/
theorem mapForm?_text {scalar : String} (hscalar : IsArgument scalar.toList) (rank : Nat) :
    mapForm? (if rank = 0 then "flat<" ++ scalar ++ ">"
      else "tensor<" ++ scalar ++ ", " ++ toString rank ++ ">") = some (MapForm.ofRank rank) := by
  cases rank with
  | zero =>
    rw [if_pos rfl, mapForm?, Template.ofChars_flat hscalar]
    exact if_pos rfl
  | succ rank =>
    rw [if_neg (Nat.succ_ne_zero rank), mapForm?, Template.ofChars_tensor hscalar]
    dsimp only
    rw [if_pos rfl, readNumeral?_toString]
    rfl

/-- The values of a tensor are a map by its rank. -/
theorem tensorValues_eq_ok {tensor : String} {arrow : Bool} {s : Shape} {values : Expr}
    (h : tensorValues tensor arrow s = .ok values) :
    ∃ called, values = .method (.name tensor) arrow called [] ∧
      mapForm? called = some (MapForm.ofRank s.tensorRank) := by
  obtain ⟨scalar, hscalar, rfl⟩ := except_map_eq_ok.mp h
  obtain ⟨depth, _, rfl⟩ := except_map_eq_ok.mp hscalar
  exact ⟨_, rfl, mapForm?_text (Element.isArgument_scalar depth) s.tensorRank⟩

/-- The declaration of a tensor's values makes one map, requires nothing, and calls nothing else. -/
theorem reads_defineValues {tensor name : String} {arrow : Bool} {s : Shape} {values : Expr}
    (hvalues : tensorValues tensor arrow s = .ok values) :
    tensorMaps [.define "auto" name values] = [(some name, MapForm.ofRank s.tensorRank)] ∧
      rankChecks [.define "auto" name values] = [] ∧
      ∀ called, mapForm? called = none → methodCalls called [.define "auto" name values] = [] := by
  obtain ⟨other, rfl, hform⟩ := tensorValues_eq_ok hvalues
  refine ⟨?_, rfl, fun called hcalled => ?_⟩
  · simp [tensorMaps, partsOf, Stmt.define, Expr.mapForm?, hform]
  · have hne : other ≠ called := by
      rintro rfl
      rw [hcalled] at hform
      cases hform
    simp [methodCalls, partsOf, Stmt.define, Expr.methodArgs?, hne]

/-! ## The statements of an operand -/

/-- The call of the inference context for a shape of some axes around its extents. -/
def inferenceCall (rank : Nat) (extents : String) : String :=
  match rank with
  | 0 => "c->Scalar(" ++ extents ++ ")"
  | 1 => "c->Vector(" ++ extents ++ ")"
  | 2 => "c->Matrix(" ++ extents ++ ")"
  | _ => "c->MakeShape(\x7b " ++ extents ++ " \x7d)"

/-- The statements that convert an operand from its tensor and to its tensor, in agreement on the rank of the tensor.
The checks, the maps and the sizes are all that there are; each index has one entry for each axis; and if there are
several channels, each is copied once, between the same channels on both sides. -/
structure Names.AgreesOnRank (n : Names) (s : Shape) (ins outs : List Stmt) : Prop where
  checked : rankChecks ins = [(n.tensorIn, (s.tensorRank : Int))]
  asked_once : methodCalls "dims" ins = [(none, [])]
  mapped_in : tensorMaps ins = [(some n.dataIn, MapForm.ofRank s.tensorRank)]
  mapped_out : tensorMaps outs = [(some n.dataOut, MapForm.ofRank s.tensorRank)]
  measured : methodCalls "dim_size" ins =
    (List.range s.tensorRank).map fun axis : Nat => (some (n.size axis), [.count axis])
  inferred : ∀ position, ∃ extents : List String, extents.length = s.tensorRank ∧ (∀ e ∈ extents, ',' ∉ e.toList) ∧
    (ShapeInference.ofOutput position s).text =
      "c->set_output(" ++ toString position ++ ", " ++ inferenceCall s.tensorRank (commaList extents) ++ ");"
  sized : (Conversion.of n.base s .toTensor).extents.length = s.tensorRank
  emptied : (Conversion.of n.base s .toTensor).emptyTest.isSome = true →
    (Conversion.of n.base s .toTensor).emptyExtents.length = s.tensorRank
  allocated : ∀ call ∈ methodCalls "allocate_output" outs, ∃ position extents tensor,
    call.2 = [position, .callNamed "TensorShape" [.initializer extents], tensor] ∧ extents.length = s.tensorRank
  ins_indexed : EverySite (Site.IsWellIndexed n s) [] ins
  outs_indexed : EverySite (Site.IsWellIndexed n s) [.declared n.value] outs
  ins_channels : 1 < s.element.channels →
    (Stmt.allAssignments ins).map (fun copy => (copy.1.elementChannel?, copy.2.lastIndex? n.dataIn)) =
      (List.range s.element.channels).map fun channel : Nat => (some (channel : Int), some (channel : Int))
  outs_channels : 1 < s.element.channels →
    (Stmt.allAssignments outs).map (fun copy => (copy.2.elementChannel?, copy.1.lastIndex? n.dataOut)) =
      (List.range s.element.channels).map fun channel : Nat => (some (channel : Int), some (channel : Int))

section Statements

variable {n : Names} {s : Shape} {name : String} {index : Int} {stmts : List Stmt}

/-- The other methods that the statements for an operand call make no map. -/
theorem mapForm?_eq_none {called : String}
    (h : called ∈ ["input", "dims", "shape", "DebugString", "dim_size", "allocate_output"] ++ valueMethods) :
    mapForm? called = none := by
  revert called
  decide

/-- The check of a tensor's rank asks for it once and makes no map. -/
theorem reads_requireRank (n : Names) (s : Shape) :
    rankChecks [requireRank n s] = [(n.tensorIn, (s.tensorRank : Int))] ∧
      methodCalls "dims" [requireRank n s] = [(none, [])] ∧
      methodCalls "dim_size" [requireRank n s] = [] ∧ tensorMaps [requireRank n s] = [] := by
  have hdims : mapForm? "dims" = none := mapForm?_eq_none (by decide)
  have hshape : mapForm? "shape" = none := mapForm?_eq_none (by decide)
  have hdebug : mapForm? "DebugString" = none := mapForm?_eq_none (by decide)
  refine ⟨rfl, rfl, rfl, ?_⟩
  simp [tensorMaps, partsOf, requireRank, requireThat, invalidArgument, Expr.callNamed, Expr.mapForm?, Expr.count,
    hdims, hshape, hdebug]

/-- The conversion of a tensor asks for the size of each axis once; it makes no map and requires no rank. -/
theorem reads_valueStatements (n : Names) (s : Shape) :
    rankChecks (tensorSizes n s ++ valueBody n s) = [] ∧
      methodCalls "dims" (tensorSizes n s ++ valueBody n s) = [] ∧
      tensorMaps (tensorSizes n s ++ valueBody n s) = [] ∧
      methodCalls "dim_size" (tensorSizes n s ++ valueBody n s) =
        (List.range s.tensorRank).map fun axis : Nat => (some (n.size axis), [.count axis]) := by
  have hsizes := callsOnly_tensorSizes n s
  have hbody := callsOnly_valueBody n s
  refine ⟨?_, ?_, ?_, ?_⟩
  · rw [rankChecks_append, rankChecks_eq_nil hsizes (by decide), rankChecks_eq_nil hbody (by decide)]
    rfl
  · rw [methodCalls_append, methodCalls_eq_nil_of_callsOnly hsizes (by decide),
      methodCalls_eq_nil_of_callsOnly hbody (by decide)]
    rfl
  · rw [tensorMaps_append, tensorMaps_eq_nil hsizes fun called hcalled => ?_,
      tensorMaps_eq_nil hbody fun called hcalled => mapForm?_eq_none (List.mem_append_right _ hcalled)]
    · rfl
    · obtain rfl := List.mem_singleton.mp hcalled
      exact mapForm?_eq_none (by decide)
  · rw [methodCalls_append, tensorSizes_eq, methodCalls_append, methodCalls_readSizes,
      methodCalls_eq_nil_of_callsOnly (callsOnly_requirements n s) (List.not_mem_nil),
      methodCalls_eq_nil_of_callsOnly hbody (by decide), List.append_nil, List.append_nil]

/-- An input is checked, mapped and asked for its sizes by the rank of its tensor. -/
theorem reads_inputStatements (h : (inputStatements name index s).outcome = .ok stmts) :
    rankChecks stmts = [(Names.tensorIn ⟨name⟩, (s.tensorRank : Int))] ∧
      methodCalls "dims" stmts = [(none, [])] ∧
      tensorMaps stmts = [(some (Names.dataIn ⟨name⟩), MapForm.ofRank s.tensorRank)] ∧
      methodCalls "dim_size" stmts =
        (List.range s.tensorRank).map fun axis : Nat => (some (Names.size ⟨name⟩ axis), [.count axis]) := by
  obtain ⟨values, hvalues, rfl⟩ := inputStatements_eq h
  let n : Names := ⟨name⟩
  have hfetch : tensorMaps [fetchTensor n index] = [] := by
    have hinput : mapForm? "input" = none := mapForm?_eq_none (by decide)
    simp [tensorMaps, partsOf, fetchTensor, Stmt.constant, Expr.mapForm?, hinput]
  obtain ⟨hchecks, hdims, hsize, hmaps⟩ := reads_requireRank n s
  obtain ⟨hmaps', hchecks', hcalls'⟩ := reads_defineValues hvalues
  obtain ⟨hchecks'', hdims'', hmaps'', hsize''⟩ := reads_valueStatements n s
  have hrest : fetchTensor n index :: afterFetch n s values =
      [fetchTensor n index] ++ ([requireRank n s] ++ ([.define "auto" n.dataIn values] ++
        (tensorSizes n s ++ valueBody n s))) := by
    rw [afterFetch, List.append_assoc]
    rfl
  change rankChecks (fetchTensor n index :: afterFetch n s values) = _ ∧ _
  rw [hrest]
  refine ⟨?_, ?_, ?_, ?_⟩
  · rw [rankChecks_append, rankChecks_append, rankChecks_append, hchecks, hchecks', hchecks'']
    rfl
  · rw [methodCalls_append, methodCalls_append, methodCalls_append, hdims, hcalls' _ (mapForm?_eq_none (by decide)),
      hdims'']
    rfl
  · rw [tensorMaps_append, tensorMaps_append, tensorMaps_append, hfetch, hmaps, hmaps', hmaps'']
    rfl
  · rw [methodCalls_append, methodCalls_append, methodCalls_append, hsize, hcalls' _ (mapForm?_eq_none (by decide)),
      hsize'']
    rfl

/-- An output is mapped once, by the rank of its tensor. -/
theorem tensorMaps_outputStatements (h : (outputStatements name index s).outcome = .ok stmts) :
    tensorMaps stmts = [(some (Names.dataOut ⟨name⟩), MapForm.ofRank s.tensorRank)] := by
  obtain ⟨values, hvalues, rfl⟩ := outputStatements_eq h
  let n : Names := ⟨name⟩
  have hallocate {extents : List Expr} (hextents : ∀ e ∈ extents, e.Every (Expr.CallsOnly ["allocate_output"])) :
      tensorMaps [allocateTensor index n.tensorOut extents] = [] := by
    refine tensorMaps_eq_nil (callsOnly_allocateTensor index n.tensorOut hextents) fun called hcalled => ?_
    obtain rfl := List.mem_singleton.mp hcalled
    exact mapForm?_eq_none (by decide)
  have hvalue {stmts : List Stmt} (honly : EveryPart (Expr.CallsOnly valueMethods) stmts) : tensorMaps stmts = [] :=
    tensorMaps_eq_nil honly fun called hcalled => mapForm?_eq_none (List.mem_append_right _ hcalled)
  obtain ⟨hextents, hempty⟩ := callsOnly_extents n s
  obtain ⟨hsizes, hbody⟩ := callsOnly_toTensor n s
  have hallocated : tensorMaps [allocateTensor index n.tensorOut (toTensor n s).extents] = [] := hallocate hextents
  have hfill : tensorMaps (fillStatements n s index values) = [(some n.dataOut, MapForm.ofRank s.tensorRank)] := by
    rw [fillStatements, tensorMaps_append, tensorMaps_append, tensorMaps_cons (allocateTensor _ _ _), hvalue hsizes,
      hvalue hbody, hallocated, (reads_defineValues hvalues).1]
    rfl
  have hcopy : tensorMaps [copyStatement n s index values] = tensorMaps (fillStatements n s index values) := by
    rw [copyStatement]
    split
    · rw [tensorMaps, partsOf_scope]
      rfl
    · have htest : tensorMaps [.eval (.method (.name n.value) false "empty" [])] = [] :=
        hvalue (by simp [Expr.CallsOnly, valueMethods])
      rw [tensorMaps, partsOf_branch, List.filterMap_append, List.filterMap_append]
      change tensorMaps [.eval _] ++ (tensorMaps [allocateTensor _ _ _] ++ tensorMaps (fillStatements _ _ _ _)) = _
      rw [htest, hallocate hempty]
      rfl
  rw [tensorMaps_cons]
  exact hcopy.trans hfill

/-! ## Extents -/

/-- The extents that are inferred and allocated are as many as the axes of the tensor. -/
theorem length_extents (n : Names) (s : Shape) :
    s.inferredExtents.length = s.tensorRank ∧ (allocatedExtents n s).length = s.tensorRank ∧
      (s.vectors.isEmpty = false → (emptyAllocation s).length = s.tensorRank) := by
  have hextents : s.extents.length = s.rank := List.length_append
  refine ⟨?_, ?_, fun hvectors => ?_⟩
  · rw [Shape.inferredExtents, List.length_append, List.length_replicate, hextents]
    rfl
  · rw [allocatedExtents, List.length_append, List.length_replicate, Names.sizes, List.length_map, List.length_range']
    rfl
  · -- A value that may be empty has a first layer, and the zero takes the place of its extent.
    have hpos : 0 < s.rank := by
      have hlayers : 0 < s.vectors.length := List.length_pos_iff.mpr (by simpa using hvectors)
      rw [Shape.rank, Shape.vectorRank]
      omega
    rw [emptyAllocation, List.length_append, List.length_cons, List.length_map, List.length_drop, List.length_replicate,
      hextents, Shape.tensorRank]
    omega

/-- The inference of an output's shape lists its extents in the call for their number. -/
theorem inferredShape_eq (extents : List Extent) :
    inferredShape extents = inferenceCall extents.length (commaList (extents.map inferredText)) := by
  have hone (a : String) : commaList [a] = a := String.intercalate_singleton
  match extents with
  | [] => rfl
  | [a] => exact congrArg (fun text => "c->Vector(" ++ text ++ ")") (hone (inferredText a)).symm
  | [a, b] =>
    have htwo : commaList ([a, b].map inferredText) = inferredText a ++ ", " ++ inferredText b := by
      rw [List.map_cons, List.map_singleton, Shape.commaList_cons (List.cons_ne_nil _ _), hone]
    change _ = "c->Matrix(" ++ commaList ([a, b].map inferredText) ++ ")"
    rw [htwo, ← String.append_assoc, ← String.append_assoc]
    rfl
  | _ :: _ :: _ :: _ => rfl

/-- The text of an extent has no comma. -/
theorem comma_not_mem_inferredText (extent : Extent) : ',' ∉ (inferredText extent).toList := by
  cases extent with
  | none => decide
  | some n =>
    intro hcomma
    exact absurd (isDigit_of_mem_toString hcomma) (by decide)

/-- The inferred shape of an output has as many extents as the tensor has axes. -/
theorem text_ofOutput (s : Shape) (position : Int) :
    ∃ extents : List String, extents.length = s.tensorRank ∧ (∀ e ∈ extents, ',' ∉ e.toList) ∧
      (ShapeInference.ofOutput position s).text =
        "c->set_output(" ++ toString position ++ ", " ++ inferenceCall s.tensorRank (commaList extents) ++ ");" := by
  obtain ⟨hlength, _, _⟩ := length_extents ⟨""⟩ s
  refine ⟨s.inferredExtents.map inferredText, ?_, ?_, ?_⟩
  · rw [List.length_map, hlength]
  · exact List.forall_mem_map.mpr fun extent _ => comma_not_mem_inferredText extent
  · have hshape := inferredShape_eq s.inferredExtents
    rw [hlength] at hshape
    unfold ShapeInference.text ShapeInference.ofOutput
    rw [hshape]

/-- Each allocation of an output has as many extents as its tensor has axes. -/
theorem length_of_mem_allocations (h : (outputStatements name index s).outcome = .ok stmts) :
    ∀ call ∈ methodCalls "allocate_output" stmts, ∃ position extents tensor,
      call.2 = [position, .callNamed "TensorShape" [.initializer extents], tensor] ∧
        extents.length = s.tensorRank := by
  obtain ⟨_, hallocated, hempty⟩ := length_extents ⟨name⟩ s
  rw [(methodCalls_outputStatements h).1, List.forall_mem_map]
  intro extents hextents
  refine ⟨_, extents, _, rfl, ?_⟩
  unfold allocatedWith at hextents
  split at hextents
  · obtain rfl := List.mem_singleton.mp hextents
    exact hallocated
  · next hvectors =>
    rcases List.mem_cons.mp hextents with rfl | hextents
    · exact hempty (Bool.eq_false_iff.mpr hvectors)
    · obtain rfl := List.mem_singleton.mp hextents
      exact hallocated

/-! ## Channels -/

/-- A shape with several channels has blocks. -/
theorem Shape.isMatrix_of_channels {s : Shape} (hseveral : 1 < s.element.channels) : s.element.isMatrix = true := by
  by_contra hprimitive
  have hone := Element.channels_of_primitive (Bool.eq_false_iff.mpr hprimitive)
  omega

/-- Each channel of an input is copied once. -/
theorem channels_inputStatements (h : (inputStatements name index s).outcome = .ok stmts)
    (hseveral : 1 < s.element.channels) :
    (Stmt.allAssignments stmts).map (fun copy => (copy.1.elementChannel?, copy.2.lastIndex? (Names.dataIn ⟨name⟩))) =
      (List.range s.element.channels).map fun channel : Nat => (some (channel : Int), some (channel : Int)) := by
  obtain ⟨values, _, rfl⟩ := inputStatements_eq h
  obtain ⟨block, hbody⟩ := allAssignments_valueBody (n := ⟨name⟩) (Shape.isMatrix_of_channels hseveral)
  have hall : Stmt.allAssignments (fetchTensor ⟨name⟩ index :: afterFetch ⟨name⟩ s values) =
      elementPairs ⟨name⟩ s block (Names.dataIn ⟨name⟩) := by
    rw [← hbody, Stmt.allAssignments, afterFetch, Stmt.allAssignments_append, Stmt.allAssignments_append,
      (allAssignments_sizes ⟨name⟩ s).1]
    rfl
  rw [hall]
  exact channels_elementPairs hseveral block _

/-- Each channel of an output is copied once. -/
theorem channels_outputStatements (h : (outputStatements name index s).outcome = .ok stmts)
    (hseveral : 1 < s.element.channels) :
    (Stmt.allAssignments stmts).map (fun copy => (copy.2.elementChannel?, copy.1.lastIndex? (Names.dataOut ⟨name⟩))) =
      (List.range s.element.channels).map fun channel : Nat => (some (channel : Int), some (channel : Int)) := by
  obtain ⟨values, _, rfl⟩ := outputStatements_eq h
  let n : Names := ⟨name⟩
  have hblock : s.hasBlock = true := by
    rw [Shape.hasBlock_eq]
    exact Shape.isMatrix_of_channels hseveral
  have hfill : Stmt.allAssignments (fillStatements n s index values) =
      (elementPairs n s (currentBlock n s) n.dataOut).map Prod.swap := by
    rw [← allAssignments_tensorBody hblock, fillStatements, Stmt.allAssignments_append, Stmt.allAssignments_append,
      (allAssignments_sizes n s).2]
    rfl
  have hall : Stmt.allAssignments [.define "Tensor*" n.tensorOut (.name "nullptr"), copyStatement n s index values] =
      Stmt.allAssignments (fillStatements n s index values) := by
    rw [Stmt.allAssignments, Stmt.allAssignments, copyStatement]
    split
    · exact List.append_nil _
    · exact List.append_nil _
  rw [hall, hfill, List.map_map]
  exact channels_elementPairs hseveral _ _

end Statements

/-- The statements for an operand of a shape that is read from tokens agree on the rank of its tensor, whatever its
name and its positions are. -/
theorem Shape.statements_agreeOnRank {tokens : List Value} {s : Shape} (hs : Shape.ofTokens tokens = .ok s)
    {name : String} {input output : Int} {ins outs : List Stmt}
    (hins : (inputStatements name input s).outcome = .ok ins)
    (houts : (outputStatements name output s).outcome = .ok outs) : Names.AgreesOnRank ⟨name⟩ s ins outs := by
  have haccepted := Shape.isAccepted_of_ofTokens hs
  obtain ⟨hchecked, hasked, hmapped, hmeasured⟩ := reads_inputStatements hins
  obtain ⟨_, hallocated, hempty⟩ := length_extents ⟨name⟩ s
  exact
    { checked := hchecked
      asked_once := hasked
      mapped_in := hmapped
      mapped_out := tensorMaps_outputStatements houts
      measured := hmeasured
      inferred := text_ofOutput s
      sized := hallocated
      emptied := fun htest => by
        cases hvectors : s.vectors.isEmpty with
        | true => simp [Conversion.of, toTensor, hvectors] at htest
        | false => simpa [Conversion.of, toTensor, hvectors] using hempty hvectors
      allocated := length_of_mem_allocations houts
      ins_indexed := fun site hsite => (everySite_inputStatements hins site hsite).isWellIndexed haccepted
      outs_indexed := fun site hsite => (everySite_outputStatements houts site hsite).isWellIndexed haccepted
      ins_channels := channels_inputStatements hins
      outs_channels := channels_outputStatements houts }

/-- Rows of matrices with three channels: the tensor has four axes, and the end of a row is looked for. -/
theorem Shape.statements_agreeOnRank_rows :
    ∃ s ins outs, Shape.ofTokens [.string "vector:2", .string "vector:none", .string "none", .string "CV_32FC3"] = .ok s ∧
      s.tensorRank = 4 ∧ (inputStatements "flow" 1 s).outcome = .ok ins ∧
      (outputStatements "flow" 0 s).outcome = .ok outs ∧ Names.AgreesOnRank ⟨"flow"⟩ s ins outs := by
  let s : Shape := ⟨[some 2, none], [none], .matrix .f32 (some 2) .mat false⟩
  have hs : Shape.ofTokens [.string "vector:2", .string "vector:none", .string "none", .string "CV_32FC3"] = .ok s := by
    rfl
  obtain ⟨ins, hins⟩ := except_exists_of_isOk (e := (inputStatements "flow" 1 s).outcome) (by rfl)
  obtain ⟨outs, houts⟩ := except_exists_of_isOk (e := (outputStatements "flow" 0 s).outcome) (by rfl)
  exact ⟨s, ins, outs, hs, rfl, hins, houts, Shape.statements_agreeOnRank hs hins houts⟩

end TensorBridge
