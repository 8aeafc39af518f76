import TensorBridge.Proofs.Conversion.Elements
import TensorBridge.Conversion.ToValue

/-!
# The container of a tensor

What the conversion of a tensor has to leave: vectors of vectors around scalars or blocks, with the tensor's
scalars at the same indices. Rows inside other vectors whose length is not known end before the first element
that starts with NaN.

The block at one path is filled by a nest of plain loops; that is shown here. The vectors around it are the
subject of the next module.
-/

namespace TensorBridge

variable {α : Type}

namespace Shape

/-- The extents of a tensor along the axes of the block. -/
def blockExtents (s : Shape) (extents : List Nat) : List Nat := (extents.drop s.vectorRank).take s.blockRank

/-- Whether a tensor has the axes of a shape and passes the requirements that its conversion makes: the sizes of
a fixed container, and the number of channels if there are several. -/
structure Admits (s : Shape) (extents : List Nat) : Prop where
  length_eq : extents.length = s.tensorRank
  fixed : s.element.container.isFixed = true → s.blockExtents extents = s.fixedExtents
  channels : extents.drop s.rank = s.channelExtents

instance (s : Shape) (extents : List Nat) : Decidable (s.Admits extents) :=
  decidable_of_iff
    (extents.length = s.tensorRank ∧
      (s.element.container.isFixed = true → s.blockExtents extents = s.fixedExtents) ∧
        extents.drop s.rank = s.channelExtents)
    ⟨fun h => ⟨h.1, h.2.1, h.2.2⟩, fun h => ⟨h.length_eq, h.fixed, h.channels⟩⟩

/-- A block with the tensor's scalars behind a path of the vector layers. -/
def blockOf (s : Shape) (t : Tensor α) (path extents : List Nat) : Block α :=
  { container := s.element.container
    element := s.element.objectType
    extents := s.boxed extents
    cells := fun place channel =>
      if Within place (s.boxed extents) ∧ channel < s.element.channels then
        some (t.cells (path ++ s.indexOf place ++ s.channelIndex channel))
      else none }

/-- What lies at a path through all vector layers: a scalar of the tensor or a block. -/
def leafOf (s : Shape) (t : Tensor α) (path : List Nat) : Object α :=
  if s.element.isMatrix then .block (s.blockOf t path (s.blockExtents t.extents))
  else .value (t.cells path)

/-- Whether the element at a path is part of its row. A row of unknown length inside other vectors has ended if
the first scalar of the element is NaN. -/
def keeps (isNaN : α → Bool) (s : Shape) (t : Tensor α) (axis : Nat) (extent : Extent) (path : List Nat) : Bool :=
  !(Conversion.isOpenRow axis extent && s.element.isFloating &&
    isNaN (t.cells (path ++ List.replicate (s.tensorRank - axis - 1) 0)))

/-- The number of elements of the row at a path. -/
def rowLength (isNaN : α → Bool) (s : Shape) (t : Tensor α) (extent : Extent) (path : List Nat) : Nat :=
  ((List.range (t.extents.getD path.length 0)).takeWhile fun i =>
    s.keeps isNaN t path.length extent (path ++ [i])).length

/-- What lies at a path, with the vector layers below it. -/
def layersOf (isNaN : α → Bool) (s : Shape) (t : Tensor α) : List Extent → List Nat → Object α
  | [], path => s.leafOf t path
  | extent :: rest, path =>
    .vector (s.coreType.layered rest.length)
      ((List.range (s.rowLength isNaN t extent path)).map fun i => layersOf isNaN s t rest (path ++ [i]))

/-- The first elements of the row at a path. -/
def rowUpTo (isNaN : α → Bool) (s : Shape) (t : Tensor α) (rest : List Extent) (path : List Nat) (count : Nat) :
    Object α :=
  .vector (s.coreType.layered rest.length)
    ((List.range count).map fun i => s.layersOf isNaN t rest (path ++ [i]))

/-- One more element of a row. -/
theorem rowUpTo_succ (isNaN : α → Bool) (s : Shape) (t : Tensor α) (rest : List Extent) (path : List Nat)
    (count : Nat) :
    s.rowUpTo isNaN t rest path (count + 1) =
      .vector (s.coreType.layered rest.length)
        (((List.range count).map fun i => s.layersOf isNaN t rest (path ++ [i])) ++
          [s.layersOf isNaN t rest (path ++ [count])]) := by
  rw [rowUpTo, List.range_succ, List.map_append]
  rfl

/-- The container of a tensor. -/
def containerOf (isNaN : α → Bool) (s : Shape) (t : Tensor α) : Object α := s.layersOf isNaN t s.vectors []

end Shape

/-- The state in which a tensor is copied: the sizes of its axes are there, and a map of its scalars that reaches at
least as far as the sizes say. -/
structure State.Supplies (σ : State α) (n : Names) (t : Tensor α) (reach : List Nat) : Prop where
  data : σ.get? (n.part .dataIn) = some (.values (Tensor.mk reach t.cells).mapped)
  size : σ.HoldsSizes n t.extents
  reaches : List.Forall₂ (· ≤ ·) t.extents reach

namespace State.Supplies

variable {σ τ : State α} {n : Names} {t : Tensor α} {reach : List Nat}

/-- States with the same map and the same sizes supply the same. -/
theorem of_get?_eq (hσ : σ.Supplies n t reach) (hdata : τ.get? (n.part .dataIn) = σ.get? (n.part .dataIn))
    (hsize : ∀ axis, τ.get? (n.part (.size axis)) = σ.get? (n.part (.size axis))) : τ.Supplies n t reach :=
  ⟨hdata.trans hσ.data, fun axis extent h => (hsize axis).trans (hσ.size axis extent h), hσ.reaches⟩

/-- Declaring a loop variable, a block or the value takes nothing away. -/
theorem declare (hσ : σ.Supplies n t reach) {p : Part} (hdata : p ≠ .dataIn) (hsize : ∀ axis, p ≠ .size axis)
    (v : Object α) : (σ.declare (n.part p) v).Supplies n t reach :=
  hσ.of_get?_eq (by rw [get?_declare_part, if_neg (Ne.symm hdata)])
    fun axis => by rw [get?_declare_part, if_neg (Ne.symm (hsize axis))]

/-- Nor does changing one. -/
theorem set (hσ : σ.Supplies n t reach) {p : Part} (hdata : p ≠ .dataIn) (hsize : ∀ axis, p ≠ .size axis)
    {u : Object α} (hp : σ.get? (n.part p) = some u) (v : Object α) : (σ.set (n.part p) v).Supplies n t reach :=
  hσ.of_get?_eq (by rw [get?_set_part hp, if_neg (Ne.symm hdata)])
    fun axis => by rw [get?_set_part hp, if_neg (Ne.symm (hsize axis))]

/-- Nor do loops. -/
theorem bindAxes (hσ : σ.Supplies n t reach) (first : Nat) (index : List Nat) :
    (σ.bindAxes n first index).Supplies n t reach :=
  hσ.of_get?_eq (get?_bindAxes σ n first index (by intro axis _; simp))
    fun axis => get?_bindAxes σ n first index (by intro axis _; simp)

/-- The map of a tensor is read at an index inside its extents, and nowhere else. -/
theorem eval_map (hσ : σ.Supplies n t reach) {m : Platform α} {es : List Expr} {index : List Nat}
    (hes : evalIndex m σ es = some index) :
    eval m σ (.callNamed n.dataIn es) =
      if Within index (Tensor.mk reach t.cells).mapped.extents then
        some (.value ((Tensor.mk reach t.cells).mapped.cells index))
      else none := by
  obtain ⟨values, hvalues, hindex⟩ := Option.bind_eq_some_iff.mp hes
  rw [Expr.callNamed, eval, hvalues, Option.bind_some]
  unfold callFunction
  rw [if_neg n.dataIn_ne_builtin.1, if_neg n.dataIn_ne_builtin.2, Names.dataIn_eq_part, hσ.data]
  simp only [hindex, Option.bind_some]

/-- A tensor with axes is read at an index inside its map, and nowhere else. -/
theorem eval_data (hσ : σ.Supplies n t reach) (hnonempty : t.extents ≠ []) {m : Platform α} {es : List Expr}
    {index : List Nat} (hes : evalIndex m σ es = some index) :
    eval m σ (.callNamed n.dataIn es) = if Within index reach then some (.value (t.cells index)) else none := by
  have hreach : reach ≠ [] := by
    intro h
    have hlength := hσ.reaches.length_eq
    rw [h] at hlength
    exact hnonempty (List.length_eq_zero_iff.mp hlength)
  rw [hσ.eval_map hes, Tensor.mapped_eq_self (t := Tensor.mk reach t.cells) hreach]

/-- An index inside the sizes is inside the map. -/
theorem eval_cell (hσ : σ.Supplies n t reach) (hnonempty : t.extents ≠ []) {m : Platform α} {es : List Expr}
    {index : List Nat} (hes : evalIndex m σ es = some index) (hwithin : Within index t.extents) :
    eval m σ (.callNamed n.dataIn es) = some (.value (t.cells index)) := by
  rw [hσ.eval_data hnonempty hes, if_pos (hwithin.mono hσ.reaches)]

/-- The scalar of a tensor without axes is read at a lone zero. -/
theorem eval_lone (hσ : σ.Supplies n t reach) (hempty : t.extents = []) {m : Platform α} :
    eval m σ (.callNamed n.dataIn [.count 0]) = some (.value (t.cells [])) := by
  have hreach : reach = [] := by
    have hlength := hσ.reaches.length_eq
    rw [hempty] at hlength
    exact List.length_eq_zero_iff.mp hlength.symm
  have hes : evalIndex m σ [.count 0] = some [0] := evalIndex_zeroIndices m σ 1
  subst hreach
  rw [hσ.eval_map hes]
  exact if_pos (List.Forall₂.cons Nat.one_pos List.Forall₂.nil)

end State.Supplies

/-- The state in which a tensor is copied whole: its map and the sizes of its axes are there. -/
structure State.Prepared (σ : State α) (n : Names) (t : Tensor α) : Prop where
  data : σ.get? (n.part .dataIn) = some (.values t.mapped)
  size : σ.HoldsSizes n t.extents

/-- The map of a tensor reaches as far as its own sizes. -/
theorem State.Prepared.supplies {σ : State α} {n : Names} {t : Tensor α} (hσ : σ.Prepared n t) :
    σ.Supplies n t t.extents :=
  ⟨hσ.data, hσ.size, List.forall₂_same.mpr fun _ _ => Nat.le_refl _⟩

/-! ## Filling a block -/

section FillBlock

variable {m : Platform α} {n : Names} {s : Shape} {t : Tensor α} {reach : List Nat} {σ : State α}

/-- The scalars of a block after the copy of all its indices. -/
theorem foldl_fill (s : Shape) (t : Tensor α) (path extents : List Nat) :
    ((indices extents).foldl (fun cells index =>
        (List.range s.element.channels).foldl (fun cells channel =>
          putCell cells (s.placeOf index) channel (t.cells (path ++ index ++ s.channelIndex channel))) cells)
      fun _ _ => none) = (s.blockOf t path extents).cells := by
  funext place channel
  have hfold := foldl_putCell (fun x : List Nat × Nat => s.placeOf x.1) Prod.snd
    (fun place channel => t.cells (path ++ s.indexOf place ++ s.channelIndex channel))
    ((indices extents).flatMap fun index => (List.range s.element.channels).map fun channel => (index, channel))
    (fun _ _ => none) place channel
  simp only [List.foldl_flatMap, List.foldl_map, Shape.indexOf_placeOf] at hfold
  rw [hfold]
  refine if_congr ?_ rfl rfl
  simp only [List.mem_flatMap, List.mem_map, mem_indices, List.mem_range]
  constructor
  · rintro ⟨_, ⟨index, hindex, c, hc, rfl⟩, rfl, rfl⟩
    exact ⟨s.within_placeOf hindex, hc⟩
  · rintro ⟨hplace, hchannel⟩
    obtain ⟨hindex, heq⟩ := s.exists_placeOf hplace
    exact ⟨(s.indexOf place, channel), ⟨_, hindex, channel, hchannel, rfl⟩, heq, rfl⟩

/-- One statement of the copy writes one channel of one element. -/
theorem run_fillElement (hmatrix : s.element.isMatrix = true) (hnonempty : t.extents ≠ [])
    (hσ : σ.Supplies n t reach) {outer extents path index : List Nat}
    (hextents : t.extents = outer ++ extents ++ s.channelExtents) (hrank : extents.length = s.blockRank)
    (hpath : Within path outer) (hlayers : path.length = s.vectorRank)
    (hwithin : Within index extents) (hindex : σ.HoldsIndex n 0 path) (hindex' : σ.HoldsIndex n s.vectorRank index)
    {x : String} {b : Block α} (hb : σ.get? x = some (.block b)) (hfits : s.Fits extents b) {channel : Nat}
    (hchannel : channel < s.element.channels) :
    run m (.assign (elementExpr n s (.name x) channel) (datumExpr n s n.dataIn channel)) σ =
      .next (σ.set x
        (.block (b.put (s.placeOf index) channel (t.cells (path ++ index ++ s.channelIndex channel))))) := by
  have hwhole : σ.HoldsIndex n 0 (path ++ index) := hindex.append (by rwa [Nat.zero_add, hlayers])
  have hlength : (path ++ index).length = s.rank := by
    rw [List.length_append, hlayers, hwithin.length_eq, hrank, Shape.rank]
  have hinside : Within (path ++ index ++ s.channelIndex channel) t.extents := by
    rw [hextents]
    exact (hpath.append hwithin).append (s.within_channelIndex hchannel)
  have hdatum := hσ.eval_cell hnonempty (m := m) (evalIndex_datum hwhole hlength channel) hinside
  have hassign := assign_elementExpr (m := m) hmatrix (evalPlace.eq_1 m σ x) hb (Object.at?_nil _) hfits hindex'
    hwithin hrank hchannel (t.cells (path ++ index ++ s.channelIndex channel))
  rw [run, datumExpr, hdatum, Option.bind_some, hassign]
  rfl

/-- The statements that fill a block leave the tensor's scalars in it. -/
theorem runAll_fillBlock (hs : s.IsAccepted) (hmatrix : s.element.isMatrix = true) {outer extents path : List Nat}
    (hextents : t.extents = outer ++ extents ++ s.channelExtents) (hrank : extents.length = s.blockRank)
    (hpath : Within path outer) (hlayers : path.length = s.vectorRank)
    (hσ : σ.Supplies n t reach) (hindex : σ.HoldsIndex n 0 path) {p : Part} (hp : p = .block ∨ p = .value)
    (hfresh : σ.get? (n.part p) =
      some (.block (.fresh s.element.container s.element.objectType (s.boxed extents)))) :
    runAll m (Conversion.fillBlock n s (n.part p)) σ =
      .next (σ.set (n.part p) (.block (s.blockOf t path extents))) := by
  have hnonempty : t.extents ≠ [] := by
    have hblock : s.block ≠ [] := fun h => by simp [hs.block_eq_nil_iff.mp h] at hmatrix
    have hpos : 0 < s.blockRank := List.length_pos_iff.mpr hblock
    intro h
    have hlength := congrArg List.length (hextents.symm.trans h)
    simp only [List.length_append, List.length_nil] at hlength
    omega
  have hpData : p ≠ .dataIn := by rcases hp with rfl | rfl <;> simp
  have hpSize : ∀ axis, p ≠ .size axis := by rcases hp with rfl | rfl <;> simp
  have hpIndex : ∀ axis, p ≠ .index axis := by rcases hp with rfl | rfl <;> simp
  -- The states of the copy differ in the scalars that the block has so far.
  let block (cells : List Nat → Nat → Option α) : Block α :=
    ⟨s.element.container, s.element.objectType, s.boxed extents, cells⟩
  let embed (cells : List Nat → Nat → Option α) : State α := σ.set (n.part p) (.block (block cells))
  have hsupplies (cells) : (embed cells).Supplies n t reach := hσ.set hpData hpSize hfresh _
  have hstart : σ = embed fun _ _ => none := (State.set_self hfresh).symm
  have hresult := runAll_plainLoops m n s.vectorRank extents (Conversion.fillElement n s (.name (n.part p))) embed
    (fun index cells => (List.range s.element.channels).foldl (fun cells channel =>
      putCell cells (s.placeOf index) channel (t.cells (path ++ index ++ s.channelIndex channel))) cells)
    ?_ ?_ fun _ _ => none
  · rw [hrank, ← hstart, foldl_fill] at hresult
    exact hresult
  · intro cells axis extent haxis
    apply (hsupplies cells).size _ extent
    obtain ⟨hlt, _⟩ := List.getElem?_eq_some_iff.mp haxis
    rw [hextents, ← hlayers, hpath.length_eq, List.append_assoc, List.getElem?_append_right (by omega),
      Nat.add_sub_cancel_left, List.getElem?_append_left hlt, haxis]
  · intro index hwithin cells
    rw [Conversion.fillElement, elementPairs_eq, List.map_map]
    refine runAll_map m _ (fun cells => (embed cells).bindAxes n s.vectorRank index)
      (fun channel cells =>
        putCell cells (s.placeOf index) channel (t.cells (path ++ index ++ s.channelIndex channel))) _ ?_ cells
    intro channel hchannel cells
    have hblock : ((embed cells).bindAxes n s.vectorRank index).get? (n.part p) = some (.block (block cells)) := by
      rw [State.get?_bindAxes _ _ _ _ fun axis _ => hpIndex axis, State.get?_set_part hfresh, if_pos rfl]
    have hheld : ((embed cells).bindAxes n s.vectorRank index).HoldsIndex n 0 path :=
      (hindex.set hpIndex hfresh _).bindAxes (by omega) index
    have hrun := run_fillElement (m := m) hmatrix hnonempty ((hsupplies cells).bindAxes _ _) hextents hrank hpath
      hlayers hwithin hheld (State.holdsIndex_bindAxes _ _ _ _) hblock ⟨rfl, rfl, rfl⟩ (List.mem_range.mp hchannel)
    rw [State.set_bindAxes _ _ _ _ hpIndex, State.set_set] at hrun
    exact hrun

end FillBlock

end TensorBridge
