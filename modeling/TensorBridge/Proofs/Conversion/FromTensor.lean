import TensorBridge.Proofs.Conversion.Layers
import TensorBridge.Proofs.Conversion.Sizes
import TensorBridge.Conversion.Build

/-!
# The conversion of a tensor

The statements that a conversion towards the value consists of leave the container of the tensor in the value's
variable. The run is refused exactly for tensors that the shape does not admit. There is one case for each
layout; they share the nest over the vector layers and the copy of one block.
-/

namespace TensorBridge

open Conversion

variable {α : Type} {m : Platform α} {n : Names} {s : Shape} {t : Tensor α} {reach : List Nat} {σ : State α}
  {v : Object α}

/-- A statement that appends to the row at a path. -/
theorem run_append {τ : State α} {path : List Nat} {w x : Object α} {item : ObjectType} {items : List (Object α)}
    (hvalue : τ.get? (n.part .value) = some w) (hindex : τ.HoldsIndex n 0 path)
    (hlayers : path.length + 1 = s.vectorRank) (hw : w.at? path = some (.vector item items)) {e : Expr}
    (he : eval m τ e = some x) :
    run m (append n s e) τ = .next (τ.withValue n (w.put path (.vector item (items ++ [x])))) := by
  have hindices := hindex.evalIndex m
  have happend := appendTo_subscripts (fun _ => eval m τ e) hindices hvalue hw he
  rw [append, callOn, run, execute, if_pos rfl, ← hlayers, Nat.add_sub_cancel]
  rw [Names.value_eq_part, happend]
  rfl

/-- The innermost statement for a vector of primitive values appends a scalar of the tensor. -/
theorem appendsLeaf_primitive (hs : s.IsAccepted) (hprimitive : s.element.isMatrix = false)
    (hvalue : σ.get? (n.part .value) = some v) (hσ : σ.Supplies n t reach) (hrank : t.extents.length = s.tensorRank) :
    AppendsLeaf m n s t σ [append n s (.callNamed n.dataIn (primitiveIndex n s))] := by
  intro path i w item items hlayers hwithin hw
  have hlength : (path ++ [i]).length = t.extents.length := by
    rw [hrank, hs.tensorRank_of_primitive hprimitive, ← hlayers, List.length_append, List.length_singleton]
  have hnonempty : t.extents ≠ [] := by
    intro h
    simp [h] at hlength
  have hsupplies : ((σ.withValue n w).bindAxes n 0 (path ++ [i])).Supplies n t reach :=
    (hσ.set (by simp) (by simp) hvalue w).bindAxes 0 _
  have hindex := State.holdsIndex_bindAxes (σ.withValue n w) n 0 (path ++ [i])
  have hvectors : s.vectors.isEmpty = false := by
    cases hempty : s.vectors with
    | nil => simp [Shape.vectorRank, hempty] at hlayers
    | cons extent rest => rfl
  have hdatum : eval m ((σ.withValue n w).bindAxes n 0 (path ++ [i])) (.callNamed n.dataIn (primitiveIndex n s)) =
      some (.value (t.cells (path ++ [i]))) := by
    have hes := hindex.evalIndex m
    rw [hlength, hrank, hs.tensorRank_of_primitive hprimitive] at hes
    rw [primitiveIndex, hvectors, if_neg (by simp)]
    rw [hlength, List.take_length] at hwithin
    exact hsupplies.eval_cell hnonempty hes hwithin
  have hget : ((σ.withValue n w).bindAxes n 0 (path ++ [i])).get? (n.part .value) = some w := by
    rw [State.get?_bindAxes _ _ _ _ (by intro axis _; simp), State.get?_set_part hvalue, if_pos rfl]
  have hrun := run_append hget hindex.left hlayers hw hdatum
  rw [runAll_singleton_of_next m hrun, Outcome.leave, State.withValue, State.set_bindAxes _ _ _ _ (by simp),
    State.leave_bindAxes_concat, State.set_set, Shape.leafOf, if_neg (by simp [hprimitive])]

/-- The innermost statements for a vector of blocks declare a block, fill it and append it. -/
theorem appendsLeaf_block (hs : s.IsAccepted) (hmatrix : s.element.isMatrix = true)
    (hvalue : σ.get? (n.part .value) = some v) (hσ : σ.Supplies n t reach) (ht : s.Admits t.extents)
    (hshape : s.element.container.isFixed = false →
      σ.get? (n.part .blockShape) = some (.numbers ((s.blockExtents t.extents).map Int.ofNat))) :
    AppendsLeaf m n s t σ
      (declareBlock s n.block n.blockShape :: fillBlock n s n.block ++ [append n s (.name n.block)]) := by
  intro path i w item items hlayers hwithin hw
  let τ := (σ.withValue n w).bindAxes n 0 (path ++ [i])
  let full := s.blockOf t (path ++ [i]) (s.blockExtents t.extents)
  have hlength : (path ++ [i]).length = s.vectorRank := by rw [List.length_append, List.length_singleton, hlayers]
  have hsupplies : τ.Supplies n t reach := (hσ.set (by simp) (by simp) hvalue w).bindAxes 0 _
  have hindex : τ.HoldsIndex n 0 (path ++ [i]) := State.holdsIndex_bindAxes _ n 0 _
  have hget : τ.get? (n.part .value) = some w := by
    rw [State.get?_bindAxes _ _ _ _ (by intro axis _; simp), State.get?_set_part hvalue, if_pos rfl]
  have hdeclare := run_declareBlock (m := m) (σ := τ) hs hmatrix ht n.block n.blockShape fun hfixed => by
    rw [Names.blockShape_eq_part, State.get?_bindAxes _ _ _ _ (by intro axis _; simp), State.get?_set_part hvalue,
      if_neg (by simp), hshape hfixed]
  let fresh : Block α := .fresh s.element.container s.element.objectType (s.boxed (s.blockExtents t.extents))
  have hsupplies' : (τ.declare (n.part .block) (.block fresh)).Supplies n t reach :=
    hsupplies.declare (by simp) (by simp) _
  have hindex' (b : Block α) : (τ.declare (n.part .block) (.block b)).HoldsIndex n 0 (path ++ [i]) :=
    hindex.declare (by simp) _
  have hfresh : (τ.declare (n.part .block) (.block fresh)).get? (n.part .block) = some (.block fresh) := by
    rw [State.get?_declare_part, if_pos rfl]
  have hfill := runAll_fillBlock (m := m) hs hmatrix ht.extents_eq ht.length_blockExtents
    (hlength ▸ hwithin) hlength hsupplies' (hindex' fresh) (.inl rfl) hfresh
  rw [State.set_declare_self] at hfill
  have hblock : eval m (τ.declare (n.part .block) (.block full)) (.name n.block) = some (.block full) := by
    rw [eval, Names.block_eq_part, State.get?_declare_part, if_pos rfl]
  have hget' : (τ.declare (n.part .block) (.block full)).get? (n.part .value) = some w := by
    rw [State.get?_declare_part, if_neg (by simp), hget]
  have happend := run_append hget' (hindex' full).left hlayers hw hblock
  rw [List.cons_append, runAll_cons_of_next m hdeclare, Names.block_eq_part, runAll_append_of_next m hfill]
  rw [Names.block_eq_part] at happend
  rw [runAll_singleton_of_next m happend, Outcome.leave, State.withValue, State.set_declare_part _ _ (by simp),
    State.leave_declare, State.set_bindAxes _ _ _ _ (by simp), State.leave_bindAxes_concat, State.set_set,
    Shape.leafOf, if_pos hmatrix]

/-- The outermost vector is declared with an empty vector at each of its positions, or empty if it is the only
one. -/
theorem run_declareVectors (hs : s.IsAccepted) {extent : Extent} {rest : List Extent}
    (hvectors : s.vectors = extent :: rest) (hσ : σ.Supplies n t reach) {outer : Nat}
    (houter : t.extents[0]? = some outer) :
    run m (declareVectors n s) σ = .next (σ.declare (n.part .value) (startOf s rest outer)) := by
  have hlayers : s.vectorRank = rest.length + 1 := by rw [Shape.vectorRank, hvectors, List.length_cons]
  have htype : ObjectType.ofText s.declaredType = some (.vector (s.coreType.layered rest.length)) := by
    rw [Shape.ofText_declaredType hs, hlayers]
    rfl
  unfold declareVectors
  cases rest with
  | nil =>
    have hobject : construct m σ s.declaredType [] = some (startOf s [] outer) := by
      unfold construct
      rw [htype]
      rfl
    rw [if_neg (by simp [hlayers]), Stmt.plain, run, initialObject, hobject]
    rfl
  | cons extent' rest =>
    have hsize : (eval m σ (n.sizeOf 0)).bind Object.position? = some outer := by
      apply eval_name_position m σ
      rw [Names.size_eq_part]
      exact hσ.size 0 outer houter
    have hobject : construct m σ s.declaredType [n.sizeOf 0] = some (startOf s (extent' :: rest) outer) := by
      unfold construct
      rw [htype]
      simp only [hsize, Option.map_some]
      rfl
    rw [if_pos (by simp [hlayers]), Stmt.construct, run, initialObject, hobject]
    rfl

/-- A lone primitive value is the only scalar of its tensor. -/
theorem runAll_scalar (hs : s.IsAccepted) (hprimitive : s.element.isMatrix = false) (hvectors : s.vectors = [])
    (hσ : σ.Supplies n t reach) (hrank : t.extents.length = s.tensorRank) :
    runAll m [.define s.declaredType n.value (.callNamed n.dataIn (primitiveIndex n s))] σ =
      .next (σ.declare (n.part .value) (s.containerOf m.isNaN t)) := by
  have hextents : t.extents = [] := by
    rw [hs.tensorRank_of_primitive hprimitive, Shape.vectorRank, hvectors] at hrank
    exact List.length_eq_zero_iff.mp hrank
  have hdatum : eval m σ (.callNamed n.dataIn (primitiveIndex n s)) = some (.value (t.cells [])) := by
    rw [primitiveIndex, hvectors]
    exact hσ.eval_lone hextents
  apply runAll_singleton_of_next m
  change Outcome.ofOption ((eval m σ (.callNamed n.dataIn (primitiveIndex n s))).map _) = _
  rw [hdatum, Shape.containerOf, hvectors, Shape.layersOf, Shape.leafOf, if_neg (by simp [hprimitive])]
  rfl

/-- The copy of a tensor into vectors of primitive values. -/
theorem runAll_vectorOfPrimitive (hs : s.IsAccepted) (hprimitive : s.element.isMatrix = false)
    (hvectors : s.vectors ≠ []) (hσ : σ.Supplies n t reach) (hrank : t.extents.length = s.tensorRank) :
    ∃ τ, runAll m (declareVectors n s ::
        nested (layerLoops n s) [append n s (.callNamed n.dataIn (primitiveIndex n s))]) σ =
          (if s.ProbesInside t.extents reach then .next τ else .stuck) ∧
      τ.get? (n.part .value) = some (s.containerOf m.isNaN t) := by
  obtain ⟨extent, rest, hcons⟩ := List.exists_cons_of_ne_nil hvectors
  obtain ⟨outer, houter⟩ := exists_extent hrank 0 (List.length_pos_iff.mpr hvectors)
  have hdeclare := run_declareVectors (m := m) hs hcons hσ houter
  have hvalue : (σ.declare (n.part .value) (startOf s rest outer)).get? (n.part .value) =
      some (startOf s rest outer) := by
    rw [State.get?_declare_part, if_pos rfl]
  have hsupplies : (σ.declare (n.part .value) (startOf s rest outer)).Supplies n t reach :=
    hσ.declare (by simp) (by simp) _
  have hloops := runAll_layerLoops_eq hvalue hsupplies hrank
    (appendsLeaf_primitive (m := m) hs hprimitive hvalue hsupplies hrank) hcons houter
  rw [State.withValue, State.set_self hvalue] at hloops
  refine ⟨_, (runAll_cons_of_next m hdeclare _).trans hloops, ?_⟩
  rw [State.get?_set_part hvalue, if_pos rfl]

/-- The extents of a block are there once they are declared, for a container that takes them at run time. -/
theorem get?_declareExtents {p : Part} (hfixed : s.element.container.isFixed = false) (extents : List Nat) :
    (if s.element.container.isFixed then σ else σ.declare (n.part p) (.numbers (extents.map Int.ofNat))).get?
      (n.part p) = some (.numbers (extents.map Int.ofNat)) := by
  rw [hfixed, if_neg (by simp), State.get?_declare_part, if_pos rfl]

/-- The copy of a tensor into vectors of blocks. -/
theorem runAll_vectorOfMatrix (hs : s.IsAccepted) (hmatrix : s.element.isMatrix = true) (hvectors : s.vectors ≠ [])
    (hσ : σ.Supplies n t reach) (ht : s.Admits t.extents) :
    ∃ τ, runAll m (declareVectors n s :: declareExtents n s n.blockShape ++
        nested (layerLoops n s)
          (declareBlock s n.block n.blockShape :: fillBlock n s n.block ++ [append n s (.name n.block)])) σ =
            (if s.ProbesInside t.extents reach then .next τ else .stuck) ∧
      τ.get? (n.part .value) = some (s.containerOf m.isNaN t) := by
  obtain ⟨extent, rest, hcons⟩ := List.exists_cons_of_ne_nil hvectors
  obtain ⟨outer, houter⟩ := exists_extent ht.length_eq 0 (List.length_pos_iff.mpr hvectors)
  have hdeclare := run_declareVectors (m := m) hs hcons hσ houter
  let σ₁ := σ.declare (n.part .value) (startOf s rest outer)
  have hsupplies₁ : σ₁.Supplies n t reach := hσ.declare (by simp) (by simp) _
  have hextents := run_declareExtents (m := m) hsupplies₁ ht n.blockShape
  let σ₂ := if s.element.container.isFixed then σ₁
    else σ₁.declare n.blockShape (.numbers ((s.blockExtents t.extents).map Int.ofNat))
  have hsupplies₂ : σ₂.Supplies n t reach := by
    unfold σ₂
    split
    · exact hsupplies₁
    · exact hsupplies₁.declare (p := .blockShape) (by simp) (by simp) _
  have hvalue : σ₂.get? (n.part .value) = some (startOf s rest outer) := by
    unfold σ₂
    split
    · rw [State.get?_declare_part, if_pos rfl]
    · rw [Names.blockShape_eq_part, State.get?_declare_part, if_neg (by simp), State.get?_declare_part, if_pos rfl]
  have hloops := runAll_layerLoops_eq hvalue hsupplies₂ ht.length_eq
    (appendsLeaf_block (m := m) hs hmatrix hvalue hsupplies₂ ht fun hfixed => get?_declareExtents hfixed _) hcons
    houter
  rw [State.withValue, State.set_self hvalue] at hloops
  rw [List.cons_append, runAll_cons_of_next m hdeclare, runAll_append_of_next m hextents]
  refine ⟨_, hloops, ?_⟩
  rw [State.get?_set_part hvalue, if_pos rfl]

/-- The copy of a tensor into a single block. -/
theorem runAll_matrix (hs : s.IsAccepted) (hmatrix : s.element.isMatrix = true) (hvectors : s.vectors = [])
    (hσ : σ.Supplies n t reach) (ht : s.Admits t.extents) :
    ∃ τ, runAll m (declareExtents n s n.shape ++ declareBlock s n.value n.shape :: fillBlock n s n.value) σ =
        .next τ ∧
      τ.get? (n.part .value) = some (s.containerOf m.isNaN t) := by
  have hextents := run_declareExtents (m := m) hσ ht n.shape
  let σ₁ := if s.element.container.isFixed then σ
    else σ.declare n.shape (.numbers ((s.blockExtents t.extents).map Int.ofNat))
  have hsupplies₁ : σ₁.Supplies n t reach := by
    unfold σ₁
    split
    · exact hσ
    · exact hσ.declare (p := .shape) (by simp) (by simp) _
  have hdeclare := run_declareBlock (m := m) (σ := σ₁) hs hmatrix ht n.value n.shape fun hfixed =>
    get?_declareExtents (n := n) (p := .shape) hfixed _
  let fresh : Block α := .fresh s.element.container s.element.objectType (s.boxed (s.blockExtents t.extents))
  have hfresh : (σ₁.declare (n.part .value) (.block fresh)).get? (n.part .value) = some (.block fresh) := by
    rw [State.get?_declare_part, if_pos rfl]
  have hlayers : s.vectorRank = 0 := by rw [Shape.vectorRank, hvectors, List.length_nil]
  have hpath : Within [] (t.extents.take s.vectorRank) := by
    rw [hlayers, List.take_zero]
    exact List.Forall₂.nil
  have hfill := runAll_fillBlock (m := m) hs hmatrix ht.extents_eq ht.length_blockExtents hpath hlayers.symm
    (hsupplies₁.declare (by simp) (by simp) _) (by intro axis i h; simp at h) (.inr rfl) hfresh
  rw [State.set_declare_self] at hfill
  rw [runAll_append_of_next m hextents, runAll_cons_of_next m hdeclare]
  refine ⟨_, hfill, ?_⟩
  rw [State.get?_declare_part, if_pos rfl, Shape.containerOf, hvectors, Shape.layersOf, Shape.leafOf, if_pos hmatrix]

/-- The copy leaves the container of an admitted tensor in the value's variable, exactly if the probes stay inside
the map. -/
theorem runAll_valueBody_eq (hs : s.IsAccepted) (ht : s.Admits t.extents) (hσ : σ.Supplies n t reach) :
    ∃ τ, runAll m (valueBody n s) σ = (if s.ProbesInside t.extents reach then .next τ else .stuck) ∧
      τ.get? (n.part .value) = some (s.containerOf m.isNaN t) := by
  have hrank := ht.length_eq
  unfold valueBody Shape.kind
  by_cases hvectors : s.vectors = []
  · have hempty : s.vectors.isEmpty = true := by rw [hvectors, List.isEmpty_nil]
    have hinside : s.ProbesInside t.extents reach := s.probesInside_of_vectors_eq_nil hvectors _
    simp only [hinside, ↓reduceIte]
    cases hmatrix : s.element.isMatrix with
    | false =>
      have hrun := runAll_scalar (m := m) hs hmatrix hvectors hσ hrank
      simp only [hempty, Bool.false_eq_true, ↓reduceIte]
      exact ⟨_, hrun, by rw [State.get?_declare_part, if_pos rfl]⟩
    | true =>
      simp only [hempty, ↓reduceIte]
      exact runAll_matrix hs hmatrix hvectors hσ ht
  · have hempty : s.vectors.isEmpty = false := by simpa using hvectors
    cases hmatrix : s.element.isMatrix with
    | false =>
      simp only [hempty, Bool.false_eq_true, ↓reduceIte]
      exact runAll_vectorOfPrimitive hs hmatrix hvectors hσ hrank
    | true =>
      simp only [hempty, Bool.false_eq_true, ↓reduceIte]
      exact runAll_vectorOfMatrix hs hmatrix hvectors hσ ht

/-- The copy leaves the container of an admitted tensor without zero extents in the value's variable. -/
theorem runAll_valueBody (hs : s.IsAccepted) (ht : s.Admits t.extents) (hpos : ∀ e ∈ t.extents, 0 < e)
    (hσ : σ.Prepared n t) :
    ∃ τ, runAll m (valueBody n s) σ = .next τ ∧ τ.get? (n.part .value) = some (s.containerOf m.isNaN t) := by
  obtain ⟨τ, hrun, hvalue⟩ := runAll_valueBody_eq (m := m) hs ht hσ.supplies
  rw [if_pos (s.probesInside_of_pos _ hpos)] at hrun
  exact ⟨τ, hrun, hvalue⟩

/-- Running the conversion of a tensor leaves its container in the value's variable, and the run is refused exactly
for a tensor that the shape does not admit. -/
theorem toValue_leaves_container {tokens : List Value} {s : Shape} (hs : Shape.ofTokens tokens = .ok s)
    (name : String) (isNaN : α → Bool) (t : Tensor α) (hrank : t.extents.length = s.tensorRank)
    (hpos : ∀ e ∈ t.extents, 1 ≤ e) (hsmall : ∀ e ∈ t.extents, e < 2 ^ 31) (σ : State α)
    (htensor : σ.get? (Names.tensorIn ⟨name⟩) = some (.tensor t))
    (hdata : σ.get? (Names.dataIn ⟨name⟩) = some (.values t.mapped)) :
    ∃ c, (Conversion.build name s .toValue).outcome = .ok c ∧
      (runAll (.wrapping isNaN) c.sizes σ = .refused ↔ ¬ s.Admits t.extents) ∧
      (runAll (.wrapping isNaN) c.sizes σ ≠ .refused →
        ∃ τ, runAll (.wrapping isNaN) (c.sizes ++ c.body) σ = .next τ ∧
          τ.get? (Names.value ⟨name⟩) = some (s.containerOf isNaN t)) := by
  have haccepted := Shape.isAccepted_of_ofTokens hs
  have hcast : ∀ e ∈ t.extents, (Platform.wrapping isNaN).toInt32 (e : Nat) = (e : Nat) := fun e he =>
    Platform.wrapping_toInt32 isNaN (hsmall e he)
  have hsizes := runAll_tensorSizes (s := s) (n := ⟨name⟩) htensor hcast hrank
  refine ⟨Conversion.of name s .toValue, rfl, ?_⟩
  change (runAll (.wrapping isNaN) (tensorSizes ⟨name⟩ s) σ = .refused ↔ _) ∧
    (runAll (.wrapping isNaN) (tensorSizes ⟨name⟩ s) σ ≠ .refused →
      ∃ τ, runAll (.wrapping isNaN) (tensorSizes ⟨name⟩ s ++ valueBody ⟨name⟩ s) σ = .next τ ∧ _)
  by_cases hadmits : s.Admits t.extents
  · rw [if_pos hadmits] at hsizes
    have hprepared : (σ.declareSizes ⟨name⟩ t.extents s.tensorRank).Prepared ⟨name⟩ t := by
      constructor
      · rw [State.get?_declareSizes _ _ _ _ (by simp)]
        exact hdata
      · rw [← hrank]
        exact σ.holdsSizes_declareSizes _ t.extents
    rw [runAll_append, hsizes]
    exact ⟨by simp [hadmits], fun _ => runAll_valueBody haccepted hadmits hpos hprepared⟩
  · rw [if_neg hadmits] at hsizes
    exact ⟨by simp [hsizes, hadmits], fun h => absurd hsizes h⟩

/-- Two rows of two numbers, where `none` is not a number. -/
def raggedTensor : Tensor (Option Nat) :=
  ⟨[2, 2], fun index => if index = [1, 1] then none else some (index.getD 0 0 + index.getD 1 0)⟩

/-- The input `x`, fetched and mapped. -/
def raggedInput : State (Option Nat) :=
  ⟨[fun y =>
    if y = "x_in" then some (.tensor raggedTensor)
    else if y = "x_in_data" then some (.values raggedTensor)
    else none], []⟩

/-- Two rows of floating-point numbers, the second one cut before its second element. -/
theorem toValue_leaves_ragged_rows :
    ∃ c, (Conversion.build "x" ⟨[none, none], [], .primitive .float false⟩ .toValue).outcome = .ok c ∧
      ∃ τ, runAll (.wrapping Option.isNone) (c.sizes ++ c.body) raggedInput = .next τ ∧
        τ.get? "x_cv" =
          some (.vector (.vector (.scalar "float"))
            [.vector (.scalar "float") [.value (some 0), .value (some 1)],
              .vector (.scalar "float") [.value (some 1)]]) := by
  have htokens : Shape.ofTokens [.string "vector:none", .string "vector:none", .string "float"] =
      .ok ⟨[none, none], [], .primitive .float false⟩ := by rfl
  obtain ⟨c, hc, hrefused, hrun⟩ := toValue_leaves_container htokens "x" Option.isNone raggedTensor rfl
    (by decide) (by decide) raggedInput rfl rfl
  obtain ⟨τ, hτ, hvalue⟩ := hrun fun h => hrefused.mp h (by decide)
  exact ⟨c, hc, τ, hτ, hvalue⟩

end TensorBridge
