import TensorBridge.Proofs.Conversion.Container

/-!
# The statements around a copy

What the single statements of a conversion do that are not loops: declarations of blocks and of their extents,
the growth of a vector, and the test for the end of a row.
-/

namespace TensorBridge

open Conversion

variable {α : Type} {m : Platform α} {n : Names} {s : Shape} {t : Tensor α} {reach : List Nat} {σ : State α}

namespace Shape.Admits

/-- The extents of an admitted tensor: those of the vector layers, of the block and of the channels. -/
theorem extents_eq {extents : List Nat} (h : s.Admits extents) :
    extents = extents.take s.vectorRank ++ s.blockExtents extents ++ s.channelExtents := by
  rw [← h.channels, List.append_assoc, Shape.blockExtents, Shape.rank, ← List.drop_drop, List.take_append_drop,
    List.take_append_drop]

/-- There is an extent for each axis of the block. -/
theorem length_blockExtents {extents : List Nat} (h : s.Admits extents) :
    (s.blockExtents extents).length = s.blockRank := by
  have hlength := h.length_eq
  simp only [Shape.blockExtents, List.length_take, List.length_drop, Shape.tensorRank, Shape.rank] at *
  omega

end Shape.Admits

/-! ## Declarations -/

/-- A block that is declared has the extents of the tensor, and nothing was written into it. -/
theorem run_declareBlock (hs : s.IsAccepted) (hmatrix : s.element.isMatrix = true) (ht : s.Admits t.extents)
    (name shape : String)
    (hshape : s.element.container.isFixed = false →
      σ.get? shape = some (.numbers ((s.blockExtents t.extents).map Int.ofNat))) :
    run m (declareBlock s name shape) σ =
      .next (σ.declare name (.block
        (.fresh s.element.container s.element.objectType (s.boxed (s.blockExtents t.extents))))) := by
  unfold declareBlock
  cases hfixed : s.element.container.isFixed with
  | true =>
    have hscalar : s.element.objectType = .scalar s.element.scalarName := by
      rw [Element.objectType, valueTypeOf, hs.fixed_channels hfixed]
      rfl
    have hobject : construct m σ s.blockType [] = some (.block
        (.fresh s.element.container s.element.objectType (s.boxed (s.blockExtents t.extents)))) := by
      unfold construct
      rw [Shape.ofText_blockType hs hfixed, hscalar, ht.fixed hfixed]
      rfl
    rw [if_pos rfl, Stmt.plain, run, initialObject, hobject]
    rfl
  | false =>
    have hcontainer : s.element.container = .mat := by simpa [Container.isFixed] using hfixed
    have hboxed := Shape.boxed_of_not_fixed hfixed (s.blockExtents t.extents)
    have htype : ObjectType.ofText "Mat" = some .mat := by
      rw [ObjectType.ofText, ObjectType.ofChars_of_none rfl]
      rfl
    have hextents : eval m σ (.name shape) = some (.numbers ((s.blockExtents t.extents).map Int.ofNat)) := by
      rw [eval, hshape hfixed]
    have hobject : construct m σ "Mat" [.count s.blockRank, .name shape, .name s.element.matrixConstant] =
        some (.block (.fresh s.element.container s.element.objectType (s.boxed (s.blockExtents t.extents)))) := by
      unfold construct
      rw [htype]
      simp only [eval_count, hextents, Option.bind_some, sizes?_numbers,
        Element.elementOfConstant?_matrixConstant hmatrix, ht.length_blockExtents, Nat.le_refl, ↓reduceIte]
      rw [List.take_of_length_le (Nat.le_of_eq ht.length_blockExtents), hcontainer, hboxed]
    rw [if_neg (by simp), Stmt.construct, run, initialObject, hobject]
    rfl

/-- The extents of a block are declared as an array. -/
theorem run_declareExtents (hσ : σ.Supplies n t reach) (ht : s.Admits t.extents) (name : String) :
    runAll m (declareExtents n s name) σ =
      .next (if s.element.container.isFixed then σ
        else σ.declare name (.numbers ((s.blockExtents t.extents).map Int.ofNat))) := by
  unfold declareExtents
  cases hfixed : s.element.container.isFixed with
  | true => rfl
  | false =>
    have hlength := ht.length_eq
    have hsizes := hσ.size.evalIndex m
      (show s.vectorRank + s.blockRank ≤ t.extents.length by rw [hlength, Shape.tensorRank, Shape.rank]; omega)
    apply runAll_singleton_of_next m
    rw [Stmt.constantArray, run, initialObject_initializer m σ _ _ hsizes]
    rfl

/-! ## Vectors -/

/-- A vector inside a variable gains an element. -/
theorem appendTo_subscripts {x : String} {v w : Object α} {es : List Expr} {path : List Nat} {item : ObjectType}
    {items : List (Object α)} (added : ObjectType → Option (Object α)) (hes : evalIndex m σ es = some path)
    (hx : σ.get? x = some v) (hv : v.at? path = some (.vector item items)) (hadded : added item = some w) :
    appendTo m σ ((Expr.name x).subscripts es) added =
      some (σ.set x (v.put path (.vector item (items ++ [w])))) := by
  rw [appendTo, evalPlace_subscripts m σ x hes]
  simp only [Option.bind_some, hx, hv, hadded, Option.map_some]

/-- The probe for the end of a row reads the first scalar of the next element, which must be inside the map. -/
theorem eval_probe (hσ : σ.Supplies n t reach) (hrank : t.extents.length = s.tensorRank) {axis : Nat}
    {path : List Nat} (hlength : path.length = axis + 1) (hpath : Within path (t.extents.take path.length))
    (hindex : σ.HoldsIndex n 0 path) :
    eval m σ (.callNamed n.dataIn (n.indices 0 (axis + 1) ++ zeroIndices (s.tensorRank - axis - 1))) =
      if ∀ e ∈ reach.drop path.length, 0 < e then
        some (.value (t.cells (path ++ List.replicate (s.tensorRank - axis - 1) 0)))
      else none := by
  have hle : path.length ≤ t.extents.length := by
    have hlengths := hpath.length_eq
    rw [List.length_take] at hlengths
    omega
  have hnonempty : t.extents ≠ [] := by
    intro h
    rw [h, List.length_nil] at hle
    omega
  have hreach : reach.length = s.tensorRank := by rw [← hσ.reaches.length_eq, hrank]
  have hes : evalIndex m σ (n.indices 0 (axis + 1) ++ zeroIndices (s.tensorRank - axis - 1)) =
      some (path ++ List.replicate (s.tensorRank - axis - 1) 0) := by
    refine evalIndex_append m σ ?_ (evalIndex_zeroIndices m σ _)
    rw [← hlength]
    exact hindex.evalIndex m
  rw [hσ.eval_data hnonempty hes]
  refine if_congr ?_ rfl rfl
  have htake : Within path (reach.take path.length) := hpath.mono (List.forall₂_take path.length hσ.reaches)
  have hcount : s.tensorRank - axis - 1 = (reach.drop path.length).length := by
    rw [List.length_drop, hreach, hlength, Nat.sub_sub]
  rw [hcount]
  constructor
  · intro hinside e he
    rw [← List.take_append_drop path.length reach, within_append, ← htake.length_eq, List.drop_left] at hinside
    exact hinside.2.pos e he
  · intro hpos
    have happend := htake.append (within_replicate_zero hpos)
    rwa [List.take_append_drop] at happend

/-- The test for the end of a row stops the loop if the next element starts with NaN. Without a next element in the
map it has no meaning. -/
theorem run_stopAtNaN (hσ : σ.Supplies n t reach) (hrank : t.extents.length = s.tensorRank) {axis : Nat}
    {path : List Nat} (hlength : path.length = axis + 1) (hpath : Within path (t.extents.take path.length))
    (hindex : σ.HoldsIndex n 0 path) :
    run m (stopAtNaN n s axis) σ =
      if ∀ e ∈ reach.drop path.length, 0 < e then
        if m.isNaN (t.cells (path ++ List.replicate (s.tensorRank - axis - 1) 0)) then .stopped σ else .next σ
      else .stuck := by
  have hprobe := eval_probe (m := m) hσ hrank hlength hpath hindex
  by_cases hpos : ∀ e ∈ reach.drop path.length, 0 < e
  · rw [if_pos hpos] at hprobe
    have hcondition : eval m σ (.callNamed "std::isnan"
        [.callNamed n.dataIn (n.indices 0 (axis + 1) ++ zeroIndices (s.tensorRank - axis - 1))]) =
          some (.truth (m.isNaN (t.cells (path ++ List.replicate (s.tensorRank - axis - 1) 0)))) := by
      rw [Expr.callNamed, eval, evalAll, hprobe, Option.bind_some, evalAll]
      rfl
    rw [if_pos hpos, stopAtNaN, run, hcondition]
    cases m.isNaN (t.cells (path ++ List.replicate (s.tensorRank - axis - 1) 0)) with
    | true => rfl
    | false => rfl
  · rw [if_neg hpos] at hprobe
    have hcondition : eval m σ (.callNamed "std::isnan"
        [.callNamed n.dataIn (n.indices 0 (axis + 1) ++ zeroIndices (s.tensorRank - axis - 1))]) = none := by
      rw [Expr.callNamed, eval, evalAll, hprobe]
      rfl
    rw [if_neg hpos, stopAtNaN, run, hcondition]

end TensorBridge
