import TensorBridge.Conversion.Build
import TensorBridge.Proofs.Conversion.Sizes
import TensorBridge.Proofs.Conversion.Sound

/-!
# What conversions evaluate, and where

All that the conversion of a tensor to a value evaluates is sound where the tensor and the values of the tensor are
declared, and all that the conversion of a value to a tensor evaluates where the value and the values of the tensor are.
-/

namespace TensorBridge

namespace Conversion

section Statements

variable {n : Names} {s : Shape} {around : List Binding}

/-! ## From the tensor to the value -/

/-- The copy of the tensor's part of a block is sound. -/
theorem allSound_fillBlock {block : String} (hmatrix : s.hasBlock = true) (hcounts : n.Counts around s.vectorRank)
    (hsizes : ∀ axis < s.rank, n.size axis ∈ around.map Binding.name) (hdata : n.dataIn ∈ around.map Binding.name)
    (hblock : block ∈ around.map Binding.name) : AllSound n s around (fillBlock n s block) := by
  apply everySite_plainLoops
  · intro i hi
    have haxis : s.vectorRank + i < s.rank := by
      unfold Shape.rank
      omega
    exact isSound_sizeOf (mem_names_append (hsizes _ haxis) _)
  · have hentered := hcounts.enterAll s.blockRank
    have hname : (Expr.name block).Every
        (Expr.IsSound n s valueMethods (around ++ n.axisBindings s.vectorRank s.blockRank)) :=
      Expr.every_isSound_name (mem_names_append hblock _)
    have hpairs := isSound_elementPairs hmatrix hentered hname (mem_names_append hdata _)
    apply everySite_of_forall
    · exact List.forall_mem_map.mpr fun _ _ => rfl
    · rw [fillElement, List.forall_mem_map]
      intro pair hpair
      exact Stmt.holdsAt_assign.mpr ⟨.inl (hpairs pair hpair).1, .inl (hpairs pair hpair).2⟩

/-- A call of a method of a layer is sound inside the loops that lead to the layer. -/
theorem holdsAt_callOn {count : Nat} {method : String} {args : List Expr} (hmethod : method ∈ valueMethods)
    (hcounts : n.Counts around count) (hvalue : n.value ∈ around.map Binding.name) {depth : Nat} (hdepth : depth ≤ count)
    (hargs : ∀ e ∈ args, e.Every (Expr.IsSound n s valueMethods around)) :
    (callOn ((Expr.name n.value).subscripts (n.indices 0 depth)) method args).HoldsAt (Site.IsSound n s valueMethods)
      around := by
  have hindex : ∀ e ∈ n.indices 0 depth, e.Every (Expr.IsSound n s valueMethods around) :=
    Expr.every_isSound_indices hcounts (by omega)
  exact Stmt.holdsAt_eval.mpr (.inl (Expr.every_method.mpr ⟨hmethod, isSound_layer hvalue hindex, hargs⟩))

/-- What the loop over a layer does first declares nothing. -/
theorem declaredIn_layerStart (n : Names) (s : Shape) (axis : Nat) (extent : Extent) :
    declaredIn (layerStart n s axis extent) = [] := by
  exact declaredIn_eq_nil_iff.mpr (forall_mem_layerStart extent rfl rfl)

/-- What the loop over a layer does first is sound inside this loop. -/
theorem allSound_layerStart {axis : Nat} (haxis : axis < s.vectorRank) (extent : Extent)
    (hcounts : n.Counts around axis) (hdata : n.dataIn ∈ around.map Binding.name)
    (hvalue : n.value ∈ around.map Binding.name) :
    AllSound n s (around ++ [n.axisBinding axis]) (layerStart n s axis extent) := by
  have hentered := hcounts.enter
  have hprobe : n.IsProbeIndex s (around ++ [n.axisBinding axis])
      (n.indices 0 (axis + 1) ++ zeroIndices (s.tensorRank - axis - 1)) :=
    ⟨axis, haxis, hentered, List.getLast?_concat, rfl⟩
  have hstop : (stopAtNaN n s axis).HoldsAt (Site.IsSound n s valueMethods) (around ++ [n.axisBinding axis]) := by
    refine Stmt.holdsAt_branch.mpr ⟨.inr ⟨mem_names_append hdata _, _, rfl, hprobe⟩, ?_, everySite_nil⟩
    exact everySite_cons.mpr ⟨Stmt.holdsAt_stop, everySite_nil⟩
  have hgrow : (callOn ((Expr.name n.value).subscripts (n.indices 0 axis)) "emplace_back" []).HoldsAt
      (Site.IsSound n s valueMethods) (around ++ [n.axisBinding axis]) :=
    holdsAt_callOn (by decide) hentered (mem_names_append hvalue _) (Nat.le_succ axis) (List.forall_mem_nil _)
  apply everySite_of_forall
  · exact declaredIn_eq_nil_iff.mp (declaredIn_layerStart n s axis extent)
  · exact forall_mem_layerStart extent hstop hgrow

/-- The loops over the layers are sound if what they repeat is sound inside all of them. -/
theorem allSound_layerLoops {inner : List Stmt} (hcounts : n.Counts around 0)
    (hsizes : ∀ axis < s.vectorRank, n.size axis ∈ around.map Binding.name)
    (hdata : n.dataIn ∈ around.map Binding.name) (hvalue : n.value ∈ around.map Binding.name)
    (hinner : AllSound n s (around ++ n.axisBindings 0 s.vectorRank) inner) :
    AllSound n s around (nested (layerLoops n s) inner) := by
  refine everySite_nested n 0 ?_ ?_
  · intro i l hl
    rw [layerLoops_eq, List.getElem?_map, Option.map_eq_some_iff] at hl
    obtain ⟨⟨extent, axis⟩, hlayer, rfl⟩ := hl
    obtain ⟨hi, hlayer⟩ := List.getElem?_eq_some_iff.mp hlayer
    rw [List.getElem_zipIdx] at hlayer
    cases hlayer
    rw [List.length_zipIdx] at hi
    refine ⟨_, rfl, declaredIn_layerStart n s _ _, ?_, ?_⟩
    · exact isSound_sizeOf (mem_names_append (hsizes _ (by unfold Shape.vectorRank; omega)) _)
    · have hentered := hcounts.enterAll i
      rw [Nat.zero_add] at hentered
      rw [Names.axisBindings, List.range'_1_concat, List.map_append, ← List.append_assoc, Nat.zero_add]
      exact allSound_layerStart hi _ hentered (mem_names_append hdata _) (mem_names_append hvalue _)
  · simpa [layerLoops_eq, Shape.vectorRank] using hinner

/-- The declaration of the outermost vector is sound. -/
theorem holdsAt_declareVectors (hsize : 1 < s.vectorRank → n.size 0 ∈ around.map Binding.name) :
    (declareVectors n s).HoldsAt (Site.IsSound n s valueMethods) around := by
  unfold declareVectors
  split
  · next hrank =>
    rw [Stmt.construct, Stmt.holdsAt_declare, List.forall_mem_singleton]
    exact ⟨isSound_sizeOf (hsize hrank), fun e he => nomatch he⟩
  · rw [Stmt.plain, Stmt.holdsAt_declare]
    exact ⟨List.forall_mem_nil _, fun e he => nomatch he⟩

/-- The declaration of the outermost vector declares the value. -/
theorem declared?_declareVectors (n : Names) (s : Shape) : (declareVectors n s).declared? = some n.value := by
  unfold declareVectors
  split <;> rfl

/-- Appending to the innermost layer is sound inside the loops over all layers. -/
theorem holdsAt_append {item : Expr} (hcounts : n.Counts around s.vectorRank)
    (hvalue : n.value ∈ around.map Binding.name) (hitem : item.Every (Expr.IsSound n s valueMethods around)) :
    (append n s item).HoldsAt (Site.IsSound n s valueMethods) around :=
  holdsAt_callOn (by decide) hcounts hvalue (Nat.sub_le _ _) (List.forall_mem_singleton.mpr hitem)

/-- The extents of a block are declared if its container takes them. -/
theorem declaredIn_declareExtents (n : Names) (s : Shape) (name : String) :
    declaredIn (declareExtents n s name) = if s.element.container.isFixed then [] else [name] := by
  unfold declareExtents
  split <;> rfl

/-- The declaration of the extents of a block is sound. -/
theorem allSound_declareExtents (hsizes : ∀ axis < s.rank, n.size axis ∈ around.map Binding.name) (name : String) :
    AllSound n s around (declareExtents n s name) := by
  unfold declareExtents
  split
  · exact everySite_nil
  · refine everySite_cons.mpr ⟨Stmt.holdsAt_declare.mpr ⟨List.forall_mem_nil _, ?_⟩, everySite_nil⟩
    rintro e ⟨⟩
    exact .inl (Expr.every_initializer.mpr ⟨trivial, Expr.every_isSound_sizes hsizes⟩)

/-- The declaration of a block declares its name. -/
theorem declared?_declareBlock (s : Shape) (name extents : String) :
    (declareBlock s name extents).declared? = some name := by
  unfold declareBlock
  split <;> rfl

/-- The allocation of a block is sound if its extents are declared where its container takes them. -/
theorem holdsAt_declareBlock (hmatrix : s.element.isMatrix = true) {extents : String}
    (hextents : s.element.container.isFixed = false → extents ∈ around.map Binding.name) (name : String) :
    (declareBlock s name extents).HoldsAt (Site.IsSound n s valueMethods) around := by
  unfold declareBlock
  split
  · exact Stmt.holdsAt_declare.mpr ⟨List.forall_mem_nil _, fun e he => nomatch he⟩
  · next hfixed =>
    have hconstant : (Expr.name s.element.matrixConstant).Every (Expr.IsSound n s valueMethods around) :=
      Expr.every_name.mpr fun hidentifier => absurd hidentifier (not_isIdentifier_matrixConstant hmatrix)
    have hname := hextents (Bool.eq_false_iff.mpr hfixed)
    refine Stmt.holdsAt_declare.mpr ⟨?_, fun e he => nomatch he⟩
    simp only [List.forall_mem_cons]
    exact ⟨.inl (Expr.every_isSound_count _), .inl (Expr.every_isSound_name hname), .inl hconstant,
      List.forall_mem_nil _⟩

/-- The copy of the tensor's part of a block declares nothing in the block that it stands in. -/
theorem declaredIn_fillBlock (n : Names) (s : Shape) (block : String) : declaredIn (fillBlock n s block) = [] := by
  unfold fillBlock
  cases n.plainLoops s.vectorRank s.blockRank with
  | nil => exact declaredIn_eq_nil_iff.mpr (List.forall_mem_map.mpr fun _ _ => rfl)
  | cons l rest => exact declaredIn_nested_cons l rest _

/-- A declared value is known after its declaration. -/
theorem value_mem_names (n : Names) (around : List Binding) :
    n.value ∈ (around ++ [Binding.declared (n.part .value)]).map Binding.name := by
  simp [Names.value_eq_part, Binding.name]

/-- The declaration of a lone value is sound. -/
theorem allSound_scalar (hblock : s.hasBlock = false) (hrank : s.vectorRank = 0) (hcounts : n.Counts around 0)
    (hdata : n.dataIn ∈ around.map Binding.name) :
    AllSound n s around [.define s.declaredType n.value (.callNamed n.dataIn (primitiveIndex n s))] := by
  refine everySite_cons.mpr ⟨Stmt.holdsAt_declare.mpr ⟨List.forall_mem_nil _, ?_⟩, everySite_nil⟩
  rintro e ⟨⟩
  exact .inl (isSound_primitiveDatum hblock hcounts (Nat.le_of_eq hrank) hdata)

/-- The loops that fill vectors with primitive values are sound. -/
theorem allSound_vectorOfPrimitive (hblock : s.hasBlock = false) (hcounts : n.Counts around 0)
    (hsizes : ∀ axis < s.vectorRank, n.size axis ∈ around.map Binding.name)
    (hdata : n.dataIn ∈ around.map Binding.name) (hvalue : n.value ∈ around.map Binding.name) :
    AllSound n s around (nested (layerLoops n s) [append n s (.callNamed n.dataIn (primitiveIndex n s))]) := by
  have hentered := hcounts.enterAll s.vectorRank
  rw [Nat.zero_add] at hentered
  refine allSound_layerLoops hcounts hsizes hdata hvalue ?_
  refine everySite_cons.mpr ⟨holdsAt_append hentered (mem_names_append hvalue _) ?_, everySite_nil⟩
  exact isSound_primitiveDatum hblock hentered (Nat.le_refl _) (mem_names_append hdata _)

/-- The loops that fill vectors with blocks are sound. -/
theorem allSound_vectorOfMatrix (hmatrix : s.element.isMatrix = true) (hcounts : n.Counts around 0)
    (hsizes : ∀ axis < s.rank, n.size axis ∈ around.map Binding.name)
    (hdata : n.dataIn ∈ around.map Binding.name) (hvalue : n.value ∈ around.map Binding.name)
    (hextents : s.element.container.isFixed = false → n.blockShape ∈ around.map Binding.name) :
    AllSound n s around (nested (layerLoops n s)
      (declareBlock s n.block n.blockShape :: fillBlock n s n.block ++ [append n s (.name n.block)])) := by
  have hentered := hcounts.enterAll s.vectorRank
  rw [Nat.zero_add] at hentered
  refine allSound_layerLoops hcounts
    (fun axis haxis => hsizes axis (Nat.lt_of_lt_of_le haxis (Nat.le_add_right _ _))) hdata hvalue ?_
  have hdeclared := hentered.declare (p := .block) (by simp)
  have hblock : n.block ∈
      ((around ++ n.axisBindings 0 s.vectorRank) ++ [Binding.declared (n.part .block)]).map Binding.name := by
    simp [Names.block_eq_part, Binding.name]
  refine everySite_append.mpr ⟨everySite_cons.mpr ⟨?_, ?_⟩, everySite_cons.mpr ⟨?_, everySite_nil⟩⟩
  · exact holdsAt_declareBlock hmatrix (fun hfixed => mem_names_append (hextents hfixed) _) _
  · rw [bindings_singleton (declared?_declareBlock s _ _)]
    exact allSound_fillBlock (by rwa [Shape.hasBlock_eq]) hdeclared
      (fun axis haxis => mem_names_append (mem_names_append (hsizes axis haxis) _) _)
      (mem_names_append (mem_names_append hdata _) _) hblock
  · have hbindings : bindings (declareBlock s n.block n.blockShape :: fillBlock n s n.block) =
        [.declared (n.part .block)] := by
      rw [← List.singleton_append, bindings_append, bindings_singleton (declared?_declareBlock s _ _),
        bindings_eq_nil (declaredIn_fillBlock n s n.block)]
      rfl
    rw [hbindings]
    exact holdsAt_append hdeclared (mem_names_append (mem_names_append hvalue _) _) (Expr.every_isSound_name hblock)

/-- The loops that fill a block are sound. -/
theorem allSound_matrix (hmatrix : s.element.isMatrix = true) (hrank : s.vectorRank = 0) (hcounts : n.Counts around 0)
    (hsizes : ∀ axis < s.rank, n.size axis ∈ around.map Binding.name) (hdata : n.dataIn ∈ around.map Binding.name)
    (hextents : s.element.container.isFixed = false → n.shape ∈ around.map Binding.name) :
    AllSound n s around (declareBlock s n.value n.shape :: fillBlock n s n.value) := by
  refine everySite_cons.mpr ⟨holdsAt_declareBlock hmatrix hextents _, ?_⟩
  rw [bindings_singleton (declared?_declareBlock s _ _)]
  have hdeclared := hcounts.declare (p := .value) (by simp)
  exact allSound_fillBlock (by rwa [Shape.hasBlock_eq]) (by rwa [hrank])
    (fun axis haxis => mem_names_append (hsizes axis haxis) _) (mem_names_append hdata _) (value_mem_names n around)

/-- The extents of a block are declared, for a container that takes them, after their declaration. -/
theorem mem_names_declareExtents (n : Names) (s : Shape) (name : String) (around : List Binding)
    (hfixed : s.element.container.isFixed = false) :
    name ∈ (around ++ bindings (declareExtents n s name)).map Binding.name := by
  simp [declaredIn_declareExtents, hfixed]

/-- The declaration of extents leaves the open loops. -/
theorem Counts.declareExtents {count : Nat} (h : n.Counts around count) (s : Shape) {p : Part}
    (hp : ∀ axis, p ≠ .index axis) : n.Counts (around ++ bindings (declareExtents n s (n.part p))) count := by
  rw [bindings, declaredIn_declareExtents]
  split
  · simpa using h
  · exact h.declare hp

/-- The body of the conversion to a value is sound where the sizes of the axes and the values of the tensor are
declared. -/
theorem allSound_valueBody (hcounts : n.Counts around 0)
    (hsizes : ∀ axis < s.rank, n.size axis ∈ around.map Binding.name) (hdata : n.dataIn ∈ around.map Binding.name) :
    AllSound n s around (valueBody n s) := by
  have hlayers : ∀ axis < s.vectorRank, n.size axis ∈ around.map Binding.name :=
    fun axis haxis => hsizes axis (Nat.lt_of_lt_of_le haxis (Nat.le_add_right _ _))
  have hfirst : 1 < s.vectorRank → n.size 0 ∈ around.map Binding.name := fun hrank => hlayers 0 (by omega)
  have hvector := hcounts.declare (p := .value) (by simp)
  have hrank : s.vectors.isEmpty = true → s.vectorRank = 0 := fun h => by
    rw [Shape.vectorRank, List.isEmpty_iff.mp h]
    rfl
  cases hmatrix : s.element.isMatrix with
  | true =>
    cases hempty : s.vectors.isEmpty with
    | true =>
      have hkind : s.kind = .matrix := by simp [Shape.kind, hmatrix, hempty]
      rw [AllSound, valueBody, hkind]
      refine everySite_append.mpr ⟨allSound_declareExtents hsizes _, ?_⟩
      exact allSound_matrix hmatrix (hrank hempty) (Counts.declareExtents hcounts s (p := .shape) (by simp))
        (fun axis haxis => mem_names_append (hsizes axis haxis) _) (mem_names_append hdata _)
        (mem_names_declareExtents n s n.shape around)
    | false =>
      have hkind : s.kind = .vectorOfMatrix := by simp [Shape.kind, hmatrix, hempty]
      rw [AllSound, valueBody, hkind]
      refine everySite_append.mpr ⟨everySite_cons.mpr ⟨holdsAt_declareVectors hfirst, ?_⟩, ?_⟩
      · rw [bindings_singleton (declared?_declareVectors n s)]
        exact allSound_declareExtents (fun axis haxis => mem_names_append (hsizes axis haxis) _) _
      · rw [← List.singleton_append, bindings_append, bindings_singleton (declared?_declareVectors n s),
          ← List.append_assoc]
        exact allSound_vectorOfMatrix hmatrix (Counts.declareExtents hvector s (p := .blockShape) (by simp))
          (fun axis haxis => mem_names_append (mem_names_append (hsizes axis haxis) _) _)
          (mem_names_append (mem_names_append hdata _) _) (mem_names_append (value_mem_names n around) _)
          (mem_names_declareExtents n s n.blockShape _)
  | false =>
    have hblock : s.hasBlock = false := by rw [Shape.hasBlock_eq, hmatrix]
    cases hempty : s.vectors.isEmpty with
    | true =>
      have hkind : s.kind = .scalar := by simp [Shape.kind, hmatrix, hempty]
      rw [AllSound, valueBody, hkind]
      exact allSound_scalar hblock (hrank hempty) hcounts hdata
    | false =>
      have hkind : s.kind = .vectorOfPrimitive := by simp [Shape.kind, hmatrix, hempty]
      rw [AllSound, valueBody, hkind]
      refine everySite_cons.mpr ⟨holdsAt_declareVectors hfirst, ?_⟩
      rw [bindings_singleton (declared?_declareVectors n s)]
      exact allSound_vectorOfPrimitive hblock hvector (fun axis haxis => mem_names_append (hlayers axis haxis) _)
        (mem_names_append hdata _) (value_mem_names n around)

/-- The requirement that a declared size is a number is sound. -/
theorem holdsAt_requireSize {methods : List String} {axis count : Nat} {message : String}
    (hsize : n.size axis ∈ around.map Binding.name) :
    (requireThat (.binary "==" (n.sizeOf axis) (.count count)) (invalidArgument message [])).HoldsAt
      (Site.IsSound n s methods) around := by
  apply holdsAt_requireThat _ (isSound_invalidArgument (List.forall_mem_nil _))
  exact Expr.every_binary.mpr ⟨trivial, Expr.every_isSound_name hsize, Expr.every_isSound_count count⟩

/-- The requirements on sizes declare nothing. -/
theorem declaredIn_requirements (n : Names) (s : Shape) :
    declaredIn (fixedRequirements n s ++ channelRequirement n s) = [] :=
  declaredIn_eq_nil_iff.mpr (forall_mem_requirements fun _ _ _ _ => rfl)

/-- The requirements on sizes are sound where the sizes are declared. -/
theorem everySite_requirements {methods : List String}
    (hsizes : ∀ axis < s.tensorRank, n.size axis ∈ around.map Binding.name) :
    EverySite (Site.IsSound n s methods) around (fixedRequirements n s ++ channelRequirement n s) :=
  everySite_of_forall (declaredIn_eq_nil_iff.mp (declaredIn_requirements n s))
    (forall_mem_requirements fun axis haxis _ _ => holdsAt_requireSize (hsizes axis haxis))

/-- Declarations of sizes. -/
theorem declaredIn_map_declareSize {β : Type} (items : List β) (axis : β → Nat) (extent : β → Expr) :
    declaredIn (items.map fun item => n.declareSize (axis item) (extent item)) =
      (items.map axis).map fun axis : Nat => n.size axis := by
  induction items with
  | nil => rfl
  | cons item rest ih => exact congrArg (n.size (axis item) :: ·) ih

/-- The sizes of all axes of the tensor are declared. -/
theorem declaredIn_readSizes (n : Names) (s : Shape) :
    declaredIn (readSizes n s) = (List.range s.tensorRank).map fun axis : Nat => n.size axis := by
  have hsizes := declaredIn_map_declareSize (n := n) (List.range s.tensorRank) id fun axis =>
    .method (.name n.tensorIn) false "dim_size" [.count axis]
  rwa [List.map_id] at hsizes

/-- The requirements on the sizes declare nothing further. -/
theorem declaredIn_tensorSizes (n : Names) (s : Shape) :
    declaredIn (tensorSizes n s) = (List.range s.tensorRank).map fun axis : Nat => n.size axis := by
  rw [tensorSizes_eq, declaredIn_append, declaredIn_requirements, declaredIn_readSizes]
  exact List.append_nil _

/-- The declarations of the sizes of the tensor are sound where the tensor is declared. -/
theorem everySite_tensorSizes (htensor : n.tensorIn ∈ around.map Binding.name) :
    EverySite (Site.IsSound n s ["dim_size"]) around (tensorSizes n s) := by
  rw [tensorSizes_eq, everySite_append]
  constructor
  · refine everySite_of_everywhere (List.forall_mem_map.mpr ?_)
    intro axis _ more
    apply holdsAt_declareSize
    refine Expr.every_method.mpr ⟨List.mem_singleton_self _, Expr.every_isSound_name (mem_names_append htensor _), ?_⟩
    exact List.forall_mem_singleton.mpr (Expr.every_isSound_count axis)
  · apply everySite_requirements
    intro axis haxis
    rw [List.map_append, map_name_bindings, declaredIn_readSizes]
    exact List.mem_append_right _ (List.mem_map.mpr ⟨axis, List.mem_range.mpr haxis, rfl⟩)

/-! ## From the value to the tensor -/

/-- The first element of some layers is sound. -/
theorem isSound_first {methods : List String} (hvalue : n.value ∈ around.map Binding.name) (depth : Nat) :
    ((Expr.name n.value).subscripts (zeroIndices depth)).Every (Expr.IsSound n s methods around) :=
  isSound_layer hvalue (Expr.every_isSound_zeroIndices depth)

/-- The declarations of the sizes of a value are sound where the value is declared. -/
theorem allSound_valueSizes (hvalue : n.value ∈ around.map Binding.name) :
    AllSound n s around (layerSizes n s ++ blockSizes n s (firstBlock n s)) := by
  apply everySite_of_everywhere
  intro stmt hstmt more
  have hknown := mem_names_append hvalue more
  rcases List.mem_append.mp hstmt with hstmt | hstmt
  · obtain ⟨axis, _, rfl⟩ := List.mem_map.mp hstmt
    apply holdsAt_declareSize
    have hmethod : "size" ∈ valueMethods := by decide
    exact Expr.every_method.mpr ⟨hmethod, isSound_first hknown axis, List.forall_mem_nil _⟩
  · obtain ⟨⟨extent, offset⟩, _, rfl⟩ := List.mem_map.mp hstmt
    apply holdsAt_declareSize
    split
    · exact Expr.every_isSound_count _
    · rw [Expr.every_subscript, Expr.every_member]
      exact ⟨trivial, ⟨trivial, isSound_first hknown s.vectorRank⟩, Expr.every_isSound_count offset⟩

/-- The sizes of all axes of the value are declared. -/
theorem declaredIn_valueSizes (n : Names) (s : Shape) :
    declaredIn (layerSizes n s ++ blockSizes n s (firstBlock n s)) =
      (List.range s.rank).map fun axis : Nat => n.size axis := by
  have hlayers := declaredIn_map_declareSize (n := n) (List.range s.vectorRank) id fun axis =>
    .method ((Expr.name n.value).subscripts (zeroIndices axis)) false "size" []
  have hblock := declaredIn_map_declareSize (n := n) s.block.zipIdx (fun x => s.vectorRank + x.2) fun x =>
    if s.element.container.isFixed then .count (x.1.getD 0)
      else .subscript (.member (firstBlock n s) "size") (.count x.2)
  have haxes : s.block.zipIdx.map (fun x => s.vectorRank + x.2) = (List.range s.blockRank).map (s.vectorRank + ·) := by
    have hoffsets : s.block.zipIdx.map Prod.snd = List.range s.blockRank := by
      simp [List.range_eq_range', Shape.blockRank]
    rw [← hoffsets, List.map_map]
    rfl
  rw [List.map_id] at hlayers
  rw [haxes] at hblock
  rw [declaredIn_append, Shape.rank, List.range_add, List.map_append]
  exact congrArg₂ (· ++ ·) hlayers hblock

/-- The copy of a value is sound where the value, the values of the tensor and the sizes are declared. -/
theorem allSound_tensorBody (hcounts : n.Counts around 0)
    (hsizes : ∀ axis < s.rank, n.size axis ∈ around.map Binding.name)
    (hdata : n.dataOut ∈ around.map Binding.name) (hvalue : n.value ∈ around.map Binding.name) :
    AllSound n s around (nested (n.plainLoops 0 s.rank) (copyInnermost n s)) := by
  have hentered := hcounts.enterAll s.rank
  rw [Nat.zero_add] at hentered
  refine everySite_plainLoops ?_ ?_
  · intro i hi
    rw [Nat.zero_add]
    exact isSound_sizeOf (mem_names_append (hsizes i hi) _)
  · have hblock : (currentBlock n s).Every (Expr.IsSound n s valueMethods (around ++ n.axisBindings 0 s.rank)) := by
      apply isSound_layer (mem_names_append hvalue _)
      apply Expr.every_isSound_indices hentered
      rw [Nat.zero_add]
      exact Nat.le_add_right _ _
    unfold copyInnermost
    split
    · next hmatrix =>
      have hpairs := isSound_elementPairs hmatrix hentered hblock (mem_names_append hdata _)
      apply everySite_of_forall
      · exact List.forall_mem_map.mpr fun _ _ => rfl
      · rw [readElement, List.forall_mem_map]
        intro pair hpair
        exact Stmt.holdsAt_assign.mpr ⟨.inl (hpairs pair hpair).2, .inl (hpairs pair hpair).1⟩
    · next hprimitive =>
      refine everySite_cons.mpr ⟨Stmt.holdsAt_assign.mpr ⟨.inl ?_, .inl hblock⟩, everySite_nil⟩
      exact isSound_primitiveDatum (Bool.eq_false_iff.mpr hprimitive) hentered (Nat.le_add_right _ _)
        (mem_names_append hdata _)

end Statements

end Conversion

end TensorBridge
