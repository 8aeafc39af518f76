import TensorBridge.Proofs.Conversion.Outputs
import TensorBridge.Proofs.Kernel.Statements

/-!
# The conversion into a tensor

The statements for an output allocate its tensor and write every scalar of a rectangular container into the cell
of its index, each cell once. The run of the nest is followed by the list of the writes so far; at its end that
is the list of all writes. A container of vectors that is empty takes the other branch, which only allocates.
-/

namespace TensorBridge

open Conversion

variable {α : Type} {m : Platform α} {n : Names} {s : Shape} {σ τ : State α} {v : Object α} {extents index : List Nat}

/-- A state whose last output tensor has some writes. -/
def State.written (τ : State α) (before : List (Allocation α)) (output : Int) (extents : List Nat)
    (writes : List (List Nat × α)) : State α :=
  { τ with outputs := before ++ [⟨output, extents, writes⟩] }

/-- One more write into the last output tensor. -/
theorem State.write_written (τ : State α) (before : List (Allocation α)) (output : Int) (extents place : List Nat)
    (writes : List (List Nat × α)) (a : α) :
    (τ.written before output extents writes).write before.length place a =
      τ.written before output extents (writes ++ [(place, a)]) := by
  apply congrArg (State.mk τ.frames)
  change (before ++ [_]).modify before.length _ = before ++ [_]
  rw [modify_append_cons]

namespace Shape.IsRectangular

/-- The cell of a scalar lies inside the tensor. -/
theorem within_tensorIndex (h : s.IsRectangular extents v) (hwithin : Within index extents) {channel : Nat}
    (hchannel : channel < s.element.channels) :
    Within (s.tensorIndex index channel) (mappedExtents (extents ++ s.channelExtents)) := by
  obtain ⟨a, _, hmem⟩ := h.mem_writesOf hwithin hchannel
  rw [← mem_indices, ← h.map_fst_writesOf]
  exact List.mem_map_of_mem (f := Prod.fst) hmem

/-- The loop variables of the vector layers and those of the block. -/
theorem holdsIndex_split (h : s.IsRectangular extents v) (hwithin : Within index extents)
    (hindex : τ.HoldsIndex n 0 index) :
    τ.HoldsIndex n 0 (index.take s.vectorRank) ∧ (index.take s.vectorRank).length = s.vectorRank ∧
      τ.HoldsIndex n s.vectorRank (index.drop s.vectorRank) := by
  have hlength : (index.take s.vectorRank).length = s.vectorRank := by
    rw [List.length_take, hwithin.length_eq, h.length_eq, Shape.rank]
    omega
  rw [← List.take_append_drop s.vectorRank index] at hindex
  have hright := hindex.right
  rw [Nat.zero_add, hlength] at hright
  exact ⟨hindex.left, hlength, hright⟩

/-- The expression for the block at the loop variables means what lies there. -/
theorem eval_currentBlock (h : s.IsRectangular extents v) (hread : m.mayRead = true)
    (hvalue : τ.get? (n.part .value) = some v) (hwithin : Within index extents) (hindex : τ.HoldsIndex n 0 index)
    {leaf : Object α} (hleaf : v.at? (index.take s.vectorRank) = some leaf) :
    eval m τ (currentBlock n s) = some leaf := by
  obtain ⟨hlayers, hlength, _⟩ := h.holdsIndex_split hwithin hindex
  have hes := hlayers.evalIndex m
  rw [hlength] at hes
  exact eval_subscripts m τ hread hvalue hes hleaf

end Shape.IsRectangular

/-- Assigning through the map of an output writes into it. -/
theorem assign_datum {k : Nat} {place : List Nat} (hdata : τ.get? (n.part .dataOut) = some (.cells k extents))
    {es : List Expr} (hes : evalIndex m τ es = some place) (hwithin : Within place extents) (a : α) :
    assign m τ (.callNamed n.dataOut es) (.value a) = some (τ.write k place a) := by
  simp only [Expr.callNamed, assign, hes, Option.bind_some, Names.dataOut_eq_part, hdata]
  exact if_pos hwithin

/-- One statement of the copy writes one channel of one element. -/
theorem run_copyElement (hs : s.IsAccepted) (hmatrix : s.element.isMatrix = true) (h : s.IsRectangular extents v)
    (hread : m.mayRead = true) (hvalue : τ.get? (n.part .value) = some v) (hwithin : Within index extents)
    (hindex : τ.HoldsIndex n 0 index) {k : Nat}
    (hdata : τ.get? (n.part .dataOut) = some (.cells k (mappedExtents (extents ++ s.channelExtents)))) {channel : Nat}
    (hchannel : channel < s.element.channels) {a : α} (ha : s.cell? v index channel = some a) :
    run m (.assign (datumExpr n s n.dataOut channel) (elementExpr n s (currentBlock n s) channel)) τ =
      .next (τ.write k (s.tensorIndex index channel) a) := by
  have hlength : index.length = s.rank := by rw [hwithin.length_eq, h.length_eq]
  have hrank : s.tensorRank ≠ 0 := by
    have hblock : s.block ≠ [] := fun hnil => by simp [hs.block_eq_nil_iff.mp hnil] at hmatrix
    have hpos : 0 < s.blockRank := List.length_pos_iff.mpr hblock
    rw [Shape.tensorRank, Shape.rank]
    omega
  have hcell : s.tensorIndex index channel = index ++ s.channelIndex channel := by
    rw [Shape.tensorIndex, if_neg hrank]
  obtain ⟨leaf, hat, hleaf⟩ := h.layered.exists_leaf hwithin
  have hblock := h.eval_currentBlock hread hvalue hwithin hindex hat
  have hinside := h.within_drop hwithin
  have hdrop : (extents.drop s.vectorRank).length = s.blockRank := by
    rw [List.length_drop, h.length_eq, Shape.rank]
    omega
  rw [Shape.cell?, hat] at ha
  generalize extents.drop s.vectorRank = rest at hleaf hinside hdrop
  cases hleaf with
  | value b hprimitive => simp [hmatrix] at hprimitive
  | block _ b _ _ _ hfits _ =>
    have helement := eval_elementExpr hread hmatrix hblock hfits (h.holdsIndex_split hwithin hindex).2.2 hinside hdrop
      hchannel ha
    have hplace := h.within_tensorIndex hwithin hchannel
    rw [hcell] at hplace ⊢
    have hassign := assign_datum hdata (evalIndex_datum (m := m) hindex hlength channel) hplace a
    rw [run, helement, Option.bind_some]
    change Outcome.ofOption (assign m τ (.callNamed n.dataOut _) _) = _
    rw [hassign]
    rfl

/-- The statement for a primitive value writes it. -/
theorem run_copyPrimitive (hs : s.IsAccepted) (hprimitive : s.element.isMatrix = false)
    (h : s.IsRectangular extents v) (hread : m.mayRead = true) (hvalue : τ.get? (n.part .value) = some v)
    (hwithin : Within index extents) (hindex : τ.HoldsIndex n 0 index) {k : Nat}
    (hdata : τ.get? (n.part .dataOut) = some (.cells k (mappedExtents (extents ++ s.channelExtents)))) {a : α}
    (ha : s.cell? v index 0 = some a) :
    run m (.assign (.callNamed n.dataOut (primitiveIndex n s)) (currentBlock n s)) τ =
      .next (τ.write k (s.tensorIndex index 0) a) := by
  have hrank := hs.tensorRank_of_primitive hprimitive
  have hlength : index.length = s.rank := by rw [hwithin.length_eq, h.length_eq]
  have hone := Element.channels_of_primitive hprimitive
  have hes : evalIndex m τ (primitiveIndex n s) = some (s.tensorIndex index 0) := by
    rw [Shape.tensorIndex, Shape.channelIndex, if_pos hone, List.append_nil, hrank, Shape.vectorRank]
    by_cases hvectors : s.vectors = []
    · rw [primitiveIndex, hvectors]
      exact evalIndex_zeroIndices m τ 1
    · have hne : ¬ s.vectors.length = 0 := fun h => hvectors (List.length_eq_zero_iff.mp h)
      have hvectorRank : s.vectorRank = index.length := by
        rw [Shape.tensorRank] at hrank
        rw [Shape.rank] at hlength hrank
        omega
      rw [primitiveIndex, if_neg (by simpa using hvectors), if_neg hne, hvectorRank]
      exact hindex.evalIndex m
  obtain ⟨leaf, hat, hleaf⟩ := h.layered.exists_leaf hwithin
  have hblock := h.eval_currentBlock hread hvalue hwithin hindex hat
  rw [Shape.cell?, hat] at ha
  generalize extents.drop s.vectorRank = rest at hleaf
  cases hleaf with
  | value b _ =>
    cases ha
    have hplace := h.within_tensorIndex hwithin s.element.channels_pos
    rw [run, hblock, Option.bind_some, assign_datum hdata hes hplace]
    rfl
  | block _ b hmatrix _ _ _ _ => simp [hprimitive] at hmatrix

/-- The innermost statements of the nest make the writes of one element. -/
theorem runAll_copyInnermost (hs : s.IsAccepted) (h : s.IsRectangular extents v) (hread : m.mayRead = true)
    (hvalue : τ.get? (n.part .value) = some v) (before : List (Allocation α)) (output : Int) (allocated : List Nat)
    (hdata : τ.get? (n.part .dataOut) =
      some (.cells before.length (mappedExtents (extents ++ s.channelExtents))))
    (hwithin : Within index extents) (writes : List (List Nat × α)) :
    runAll m (copyInnermost n s) ((τ.written before output allocated writes).bindAxes n 0 index) =
      .next ((τ.written before output allocated (writes ++ s.elementWrites v index)).bindAxes n 0 index) := by
  let embed (writes : List (List Nat × α)) : State α := (τ.written before output allocated writes).bindAxes n 0 index
  have hget (writes) {p : Part} (hp : ∀ axis, p ≠ .index axis) : (embed writes).get? (n.part p) = τ.get? (n.part p) :=
    State.get?_bindAxes _ n 0 index fun axis _ => hp axis
  have hindex (writes) : (embed writes).HoldsIndex n 0 index := State.holdsIndex_bindAxes _ n 0 index
  have hwrite (writes) (place : List Nat) (a : α) :
      (embed writes).write before.length place a = embed (writes ++ [(place, a)]) := by
    rw [State.write_bindAxes, State.write_written]
  unfold copyInnermost
  rw [Shape.hasBlock_eq]
  cases hmatrix : s.element.isMatrix with
  | true =>
    have hrun := runAll_map m
      (fun channel => .assign (datumExpr n s n.dataOut channel) (elementExpr n s (currentBlock n s) channel)) embed
      (fun channel writes => writes ++ ((s.cell? v index channel).map (s.tensorIndex index channel, ·)).toList)
      (List.range s.element.channels) ?_ writes
    · rw [if_pos rfl, readElement, elementPairs_eq, List.map_map]
      rw [List.foldl_append_eq_append, ← List.flatMap_def] at hrun
      exact hrun
    · intro channel hchannel writes
      have hlt := List.mem_range.mp hchannel
      obtain ⟨a, ha⟩ := h.exists_cell hwithin hlt
      rw [run_copyElement hs hmatrix h hread ((hget writes (by simp)).trans hvalue) hwithin (hindex writes)
        ((hget writes (by simp)).trans hdata) hlt ha, hwrite, ha]
      rfl
  | false =>
    have hone := Element.channels_of_primitive hmatrix
    obtain ⟨a, ha⟩ := h.exists_cell hwithin s.element.channels_pos
    have hrun := run_copyPrimitive hs hmatrix h hread ((hget writes (by simp)).trans hvalue) hwithin (hindex writes)
      ((hget writes (by simp)).trans hdata) ha
    have hwrites : s.elementWrites v index = [(s.tensorIndex index 0, a)] := by
      simp [Shape.elementWrites, hone, ha]
    rw [if_neg (by simp), runAll_singleton_of_next m hrun, hwrite, hwrites]

/-- The nest over all axes makes the writes of the copy. -/
theorem runAll_copy (hs : s.IsAccepted) (h : s.IsRectangular extents v) (hread : m.mayRead = true)
    (hvalue : τ.get? (n.part .value) = some v) (hsizes : τ.HoldsSizes n extents) (before : List (Allocation α))
    (output : Int) (allocated : List Nat)
    (hdata : τ.get? (n.part .dataOut) =
      some (.cells before.length (mappedExtents (extents ++ s.channelExtents)))) :
    runAll m (toTensor n s).body (τ.written before output allocated []) =
      .next (τ.written before output allocated (s.writesOf v extents)) := by
  have hrun := runAll_plainLoops m n 0 extents (copyInnermost n s) (τ.written before output allocated)
    (fun index writes => writes ++ s.elementWrites v index)
    (fun _ axis extent haxis => by rw [Nat.zero_add]; exact hsizes axis extent haxis)
    (fun index hwithin writes => runAll_copyInnermost hs h hread hvalue before output allocated hdata hwithin writes) []
  rw [h.length_eq, ← List.flatMap_eq_foldl] at hrun
  exact hrun

/-! ## The statements for an output -/

/-- A state whose last output tensor is new has no writes in it. -/
theorem State.written_nil {before : List (Allocation α)} {output : Int}
    (h : τ.outputs = before ++ [⟨output, extents, []⟩]) : τ.written before output extents [] = τ := by
  rw [State.written, ← h]

/-- Filling an output copies a rectangular container into a new tensor. -/
theorem runAll_fillStatements (hs : s.IsAccepted) (h : s.IsRectangular extents v) (hpos : ∀ e ∈ extents, 0 < e)
    (hread : m.mayRead = true) (hcast : ∀ e ∈ extents, m.toInt32 (e : Nat) = (e : Nat)) {values : Expr}
    (hvalues : tensorValues n.tensorOut true s = .ok values) (index : Int)
    (hvalue : σ.get? (n.part .value) = some v) (hpointer : σ.get? (n.part .tensorOut) = some (.pointer none)) :
    ∃ τ, runAll m (fillStatements n s index values) σ = .next τ ∧
      τ.outputs = σ.outputs ++ [⟨index, extents ++ s.channelExtents, s.writesOf v extents⟩] := by
  have hsizes := runAll_containerSizes hread hvalue h hpos hcast
  let σ₁ := σ.declareSizes n extents s.rank
  have hget₁ {p : Part} (hp : ∀ axis, p ≠ .size axis) : σ₁.get? (n.part p) = σ.get? (n.part p) :=
    State.get?_declareSizes σ n extents s.rank hp
  have hheld : σ₁.HoldsSizes n extents := by
    unfold σ₁
    rw [← h.length_eq]
    exact σ.holdsSizes_declareSizes n extents
  have houtputs₁ : σ₁.outputs = σ.outputs := State.outputs_declareSizes σ n extents s.rank
  have hallocate := run_allocateTensor (evalIndex_allocatedExtents (m := m) hheld h.length_eq) index n.tensorOut
  let σ₂ := (σ₁.allocate index (extents ++ s.channelExtents)).set (n.part .tensorOut)
    (.pointer (some σ.outputs.length))
  have hpointer₁ : (σ₁.allocate index (extents ++ s.channelExtents)).get? (n.part .tensorOut) =
      some (.pointer none) := (hget₁ (by simp)).trans hpointer
  have hget₂ {p : Part} (hp : p ≠ .tensorOut) : σ₂.get? (n.part p) = σ₁.get? (n.part p) := by
    rw [State.get?_set_part hpointer₁, if_neg hp, State.get?_allocate]
  have houtputs₂ : σ₂.outputs = σ.outputs ++ [⟨index, extents ++ s.channelExtents, []⟩] := by
    rw [← houtputs₁]
    rfl
  have hlength : (extents ++ s.channelExtents).length = s.tensorRank := by
    rw [List.length_append, h.length_eq, Shape.channelExtents, List.length_replicate, Shape.tensorRank]
  have hdefine := run_defineValues (m := m) (σ := σ₂) hvalues (by rw [State.get?_set_part hpointer₁, if_pos rfl])
    (o := ⟨index, extents ++ s.channelExtents, []⟩) (by rw [houtputs₂]; simp) hlength
  let σ₃ := σ₂.declare (n.part .dataOut) (.cells σ.outputs.length (mappedExtents (extents ++ s.channelExtents)))
  have hvalue₃ : σ₃.get? (n.part .value) = some v := by
    rw [State.get?_declare_part, if_neg (by simp), hget₂ (by simp), hget₁ (by simp), hvalue]
  have hheld₃ : σ₃.HoldsSizes n extents := by
    intro axis extent haxis
    rw [State.get?_declare_part, if_neg (by simp), hget₂ (by simp)]
    exact hheld axis extent haxis
  have hcopy := runAll_copy hs h hread hvalue₃ hheld₃ σ.outputs index (extents ++ s.channelExtents)
    (by rw [State.get?_declare_part, if_pos rfl])
  rw [State.written_nil (by rw [State.outputs_declare, houtputs₂])] at hcopy
  rw [Names.tensorOut_eq_part, houtputs₁] at hallocate
  refine ⟨σ₃.written σ.outputs index (extents ++ s.channelExtents) (s.writesOf v extents), ?_, rfl⟩
  rw [fillStatements, List.append_assoc, runAll_append_of_next m hsizes]
  exact (runAll_cons_of_next m hallocate _).trans ((runAll_cons_of_next m hdefine _).trans hcopy)

/-- The copy of an output fills a new tensor, inside a block of its own. -/
theorem run_copyStatement (hs : s.IsAccepted) (h : s.IsRectangular extents v) (hpos : ∀ e ∈ extents, 0 < e)
    (hread : m.mayRead = true) (hcast : ∀ e ∈ extents, m.toInt32 (e : Nat) = (e : Nat)) {values : Expr}
    (hvalues : tensorValues n.tensorOut true s = .ok values) (index : Int)
    (hvalue : σ.get? (n.part .value) = some v) (hpointer : σ.get? (n.part .tensorOut) = some (.pointer none)) :
    ∃ τ, run m (copyStatement n s index values) σ = .next τ ∧
      τ.outputs = σ.outputs ++ [⟨index, extents ++ s.channelExtents, s.writesOf v extents⟩] := by
  obtain ⟨τ, hfill, houtputs⟩ := runAll_fillStatements (σ := σ.enter) hs h hpos hread hcast hvalues index hvalue
    hpointer
  refine ⟨τ.leave, ?_, houtputs⟩
  unfold copyStatement
  cases hvectors : s.vectors with
  | nil =>
    rw [List.isEmpty_nil, if_pos rfl, run, hfill]
    rfl
  | cons extent rest =>
    have hlayers : 0 < s.vectorRank := by rw [Shape.vectorRank, hvectors, List.length_cons]; omega
    obtain ⟨item, items, hat, hlength⟩ :=
      h.layered.nested.exists_first (fun e he => hpos e (List.mem_of_mem_take he)) hlayers
    rw [List.replicate_zero, Object.at?_nil, Option.some.injEq] at hat
    subst hat
    have hnonempty : items.isEmpty = false := by
      have hfirst : items.length ∈ extents := List.mem_of_getElem? hlength
      have hne := hpos _ hfirst
      cases items with
      | nil => simp at hne
      | cons x rest => rfl
    have htest : eval m σ (.method (.name n.value) false "empty" []) = some (.truth false) := by
      rw [eval, eval, Names.value_eq_part, hvalue, Option.bind_some, evalAll]
      simp [callMethod, hnonempty]
    rw [List.isEmpty_cons, if_neg (by simp), run, htest, hfill]
    rfl

/-- The copy of an empty container allocates its tensor and does nothing else. -/
theorem run_copyStatement_empty (hvectors : s.vectors ≠ []) (index : Int) (values : Expr) {item : ObjectType}
    (hvalue : σ.get? (n.part .value) = some (.vector item [])) :
    ∃ τ, run m (copyStatement n s index values) σ = .next τ ∧
      τ.outputs = σ.outputs ++ [⟨index, s.emptyExtents, []⟩] := by
  have htest : eval m σ (.method (.name n.value) false "empty" []) = some (.truth true) := by
    rw [eval, eval, Names.value_eq_part, hvalue, Option.bind_some, evalAll]
    simp [callMethod]
  have hallocate := run_allocateTensor (m := m) (σ := σ.enter) (evalIndex_emptyAllocation (s := s)) index n.tensorOut
  refine ⟨((σ.enter.allocate index s.emptyExtents).set n.tensorOut (.pointer (some σ.outputs.length))).leave, ?_, rfl⟩
  rw [copyStatement, if_neg (by simpa using hvectors), run, htest]
  change (runAll m [allocateTensor index n.tensorOut (emptyAllocation s)] σ.enter).leave = _
  rw [runAll_singleton_of_next m hallocate]
  rfl

/-- The statements for an output copy a rectangular container into a new tensor of its extents: each cell of the
tensor is written once, no other cell is, and what is written at an index is the scalar of the container there.
For an empty container of vectors they allocate the tensor for that case and write nothing; this holds on every
platform, so also where no element of a container may be read. -/
theorem outputStatements_copy {tokens : List Value} {s : Shape} (hs : Shape.ofTokens tokens = .ok s) (name : String)
    (index : Int) {stmts : List Stmt} (hstmts : (outputStatements name index s).outcome = .ok stmts) (m : Platform α)
    (σ : State α) (v : Object α) (hvalue : σ.get? (Names.value ⟨name⟩) = some v) :
    (∀ extents, s.IsRectangular extents v → (∀ e ∈ extents, 1 ≤ e) →
      (∀ e ∈ extents, m.toInt32 (e : Nat) = (e : Nat)) → m.mayRead = true →
      ∃ τ writes, runAll m stmts σ = .next τ ∧
        τ.outputs = σ.outputs ++ [⟨index, extents ++ s.channelExtents, writes⟩] ∧
        (writes.map Prod.fst).Nodup ∧
        (∀ cell, cell ∈ writes.map Prod.fst ↔ Within cell (mappedExtents (extents ++ s.channelExtents))) ∧
        ∀ place, Within place extents → ∀ channel < s.element.channels,
          ∃ a, s.cell? v place channel = some a ∧ (s.tensorIndex place channel, a) ∈ writes) ∧
    (s.vectors ≠ [] → ∀ item, v = .vector item [] →
      ∃ τ, runAll m stmts σ = .next τ ∧ τ.outputs = σ.outputs ++ [⟨index, s.emptyExtents, []⟩]) := by
  obtain ⟨values, hvalues, rfl⟩ := outputStatements_eq hstmts
  let n : Names := ⟨name⟩
  have hdeclare : run m (.define "Tensor*" n.tensorOut (.name "nullptr")) σ =
      .next (σ.declare (n.part .tensorOut) (.pointer none)) := rfl
  have hvalue' : (σ.declare (n.part .tensorOut) (.pointer none)).get? (n.part .value) = some v := by
    rw [State.get?_declare_part, if_neg (by simp)]
    exact hvalue
  have hpointer : (σ.declare (n.part .tensorOut) (.pointer none)).get? (n.part .tensorOut) = some (.pointer none) := by
    rw [State.get?_declare_part, if_pos rfl]
  constructor
  · intro extents h hpos hcast hread
    obtain ⟨τ, hrun, houtputs⟩ := run_copyStatement (Shape.isAccepted_of_ofTokens hs) h hpos hread hcast hvalues index
      hvalue' hpointer
    rw [State.outputs_declare] at houtputs
    refine ⟨τ, s.writesOf v extents, ?_, houtputs, ?_, ?_, ?_⟩
    · exact (runAll_cons_of_next m hdeclare _).trans (runAll_singleton_of_next m hrun)
    · rw [h.map_fst_writesOf]
      exact nodup_indices _
    · intro cell
      rw [h.map_fst_writesOf]
      exact mem_indices
    · intro place hplace channel hchannel
      exact h.mem_writesOf hplace hchannel
  · rintro hvectors item rfl
    obtain ⟨τ, hrun, houtputs⟩ := run_copyStatement_empty (m := m) (n := n) hvectors index values hvalue'
    rw [State.outputs_declare] at houtputs
    exact ⟨τ, (runAll_cons_of_next m hdeclare _).trans (runAll_singleton_of_next m hrun), houtputs⟩

/-- One block of two elements with two channels each. -/
theorem outputStatements_copy_pair :
    ∃ stmts, (outputStatements "x" 4 ⟨[none], [none], .matrix .u8 (some 1) .mat false⟩).outcome = .ok stmts ∧
      ∃ τ writes, runAll (.wrapping fun _ => false) stmts
          ⟨[fun y =>
            if y = "x_cv" then
              some (.vector .mat [.block ⟨.mat, .fixed .vec "uint8_t" [2], [2], fun place channel =>
                some (place.getD 0 0 + channel)⟩])
            else none], []⟩ = .next τ ∧
        τ.outputs = [⟨4, [1, 2, 2], writes⟩] ∧ (writes.map Prod.fst).Nodup ∧ ([0, 1, 1], 2) ∈ writes := by
  have htokens : Shape.ofTokens [.string "vector:none", .string "none", .string "CV_8UC2"] =
      .ok ⟨[none], [none], .matrix .u8 (some 1) .mat false⟩ := by rfl
  have hrect : Shape.IsRectangular ⟨[none], [none], .matrix .u8 (some 1) .mat false⟩ [1, 2]
      (.vector .mat [.block ⟨.mat, .fixed .vec "uint8_t" [2], [2], fun place channel =>
        some (place.getD 0 0 + channel)⟩]) := by
    refine ⟨rfl, @Shape.IsLayered.row _ _ 0 [2] [_] fun x hx => ?_⟩
    obtain rfl := List.mem_singleton.mp hx
    exact .leaf (.block [2] _ rfl rfl (by decide) ⟨rfl, rfl, rfl⟩ fun _ _ _ _ => rfl)
  obtain ⟨hcopy, _⟩ := outputStatements_copy htokens "x" 4 rfl (.wrapping fun _ => false)
    ⟨[fun y =>
      if y = "x_cv" then
        some (.vector .mat [.block ⟨.mat, .fixed .vec "uint8_t" [2], [2], fun place channel =>
          some (place.getD 0 0 + channel)⟩])
      else none], []⟩ _ rfl
  obtain ⟨τ, writes, hrun, houtputs, hnodup, _, hcells⟩ := hcopy [1, 2] hrect (by decide) (by decide) rfl
  obtain ⟨a, ha, hmem⟩ := hcells [0, 1] (by decide) 1 (by decide)
  cases ha
  exact ⟨_, rfl, τ, writes, hrun, houtputs, hnodup, hmem⟩

end TensorBridge
