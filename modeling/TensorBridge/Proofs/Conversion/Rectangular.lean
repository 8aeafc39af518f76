import TensorBridge.Proofs.Conversion.Elements

/-!
# Rectangular containers

A container whose rows all have the same length, layer by layer, has extents: one for each vector layer and for
each axis of its blocks. Its elements are found by an index of all axes. The writes that a copy into a tensor
has to make are listed here with the cells they go to, every cell of the tensor once.
-/

namespace TensorBridge

variable {α : Type}

namespace Shape

/-- A value inside the vector layers, by its type and extents alone: a scalar, or a block. -/
inductive IsItem (s : Shape) : List Nat → Object α → Prop
  | value (a : α) : s.element.isMatrix = false → IsItem s [] (.value a)
  | block (extents : List Nat) (b : Block α) :
    s.element.isMatrix = true → extents.length = s.blockRank →
    (s.element.container.isFixed = true → extents = s.fixedExtents) → s.Fits extents b →
    IsItem s extents (.block b)

/-- Vector layers around such values, of which each has rows of one length. -/
inductive IsNested (s : Shape) : Nat → List Nat → Object α → Prop
  | item {extents : List Nat} {v : Object α} : s.IsItem extents v → IsNested s 0 extents v
  | row {layers : Nat} {extents : List Nat} {items : List (Object α)} :
    (∀ x ∈ items, IsNested s layers extents x) →
    IsNested s (layers + 1) (items.length :: extents) (.vector (s.coreType.layered layers) items)

/-- A container of a shape's declared type whose rows have one length at each depth. Below an empty row there is
nothing that its other extents say. -/
structure HasExtents (s : Shape) (extents : List Nat) (v : Object α) : Prop where
  length_eq : extents.length = s.rank
  nested : s.IsNested s.vectorRank extents v

/-- A value inside the vector layers: a scalar, or a block that was written everywhere. -/
inductive IsLeaf (s : Shape) : List Nat → Object α → Prop
  | value (a : α) : s.element.isMatrix = false → IsLeaf s [] (.value a)
  | block (extents : List Nat) (b : Block α) :
    s.element.isMatrix = true → extents.length = s.blockRank →
    (s.element.container.isFixed = true → extents = s.fixedExtents) → s.Fits extents b →
    (∀ index, Within index extents → ∀ channel < s.element.channels,
      (b.cells (s.placeOf index) channel).isSome = true) → IsLeaf s extents (.block b)

/-- Vector layers of which each has rows of one length. -/
inductive IsLayered (s : Shape) : Nat → List Nat → Object α → Prop
  | leaf {extents : List Nat} {v : Object α} : s.IsLeaf extents v → IsLayered s 0 extents v
  | row {layers : Nat} {extents : List Nat} {items : List (Object α)} :
    (∀ x ∈ items, IsLayered s layers extents x) →
    IsLayered s (layers + 1) (items.length :: extents) (.vector (s.coreType.layered layers) items)

/-- A rectangular container of a shape's declared type, with its extents. -/
structure IsRectangular (s : Shape) (extents : List Nat) (v : Object α) : Prop where
  length_eq : extents.length = s.rank
  layered : s.IsLayered s.vectorRank extents v

/-- The scalar of a container at an index of all axes, with its channel. -/
def cell? (s : Shape) (v : Object α) (index : List Nat) (channel : Nat) : Option α :=
  match v.at? (index.take s.vectorRank) with
  | some (.value a) => some a
  | some (.block b) => b.cells (s.placeOf (index.drop s.vectorRank)) channel
  | _ => none

/-- The cell of the tensor for an index of all axes and a channel; a tensor without axes is a row of one. -/
def tensorIndex (s : Shape) (index : List Nat) (channel : Nat) : List Nat :=
  if s.tensorRank = 0 then [0] else index ++ s.channelIndex channel

/-- The writes that copy the element at an index, one for each channel. -/
def elementWrites (s : Shape) (v : Object α) (index : List Nat) : List (List Nat × α) :=
  (List.range s.element.channels).flatMap fun channel =>
    ((s.cell? v index channel).map (s.tensorIndex index channel, ·)).toList

/-- The writes that copy a container into its tensor, in order. -/
def writesOf (s : Shape) (v : Object α) (extents : List Nat) : List (List Nat × α) :=
  (indices extents).flatMap (s.elementWrites v)

variable {s : Shape}

/-- A leaf lies at every index of the layers. -/
theorem IsLayered.exists_leaf {layers : Nat} {extents index : List Nat} {v : Object α}
    (h : s.IsLayered layers extents v) (hindex : Within index extents) :
    ∃ leaf, v.at? (index.take layers) = some leaf ∧ s.IsLeaf (extents.drop layers) leaf := by
  induction h generalizing index with
  | leaf hleaf => exact ⟨_, Object.at?_nil _, hleaf⟩
  | @row layers extents items hitems ih =>
    cases hindex with
    | @cons i _ tail _ hi htail =>
      obtain ⟨leaf, hat, hleaf⟩ := ih items[i] (List.getElem_mem hi) htail
      refine ⟨leaf, ?_, hleaf⟩
      rw [List.take_succ_cons, Object.at?_vector_cons, List.getElem?_eq_getElem hi]
      exact hat

/-- A vector of the layer's length lies behind zeros for the layers outside of it, if none of these is empty. -/
theorem IsNested.exists_first {layers : Nat} {extents : List Nat} {v : Object α} (h : s.IsNested layers extents v)
    {axis : Nat} (hpos : ∀ e ∈ extents.take axis, 0 < e) (haxis : axis < layers) :
    ∃ item items, v.at? (List.replicate axis 0) = some (.vector item items) ∧ extents[axis]? = some items.length := by
  induction h generalizing axis with
  | item _ => omega
  | @row layers extents items hitems ih =>
    cases axis with
    | zero => exact ⟨_, items, Object.at?_nil _, rfl⟩
    | succ axis =>
      rw [List.take_succ_cons, List.forall_mem_cons] at hpos
      obtain ⟨item, row, hat, hlength⟩ := ih items[0] (List.getElem_mem hpos.1) hpos.2 (Nat.lt_of_succ_lt_succ haxis)
      refine ⟨item, row, ?_, hlength⟩
      rw [List.replicate_succ, Object.at?_vector_cons, List.getElem?_eq_getElem hpos.1]
      exact hat

/-- A value lies behind zeros for all layers, if none of these is empty. -/
theorem IsNested.exists_item {layers : Nat} {extents : List Nat} {v : Object α} (h : s.IsNested layers extents v)
    (hpos : ∀ e ∈ extents.take layers, 0 < e) :
    ∃ item, v.at? (List.replicate layers 0) = some item ∧ s.IsItem (extents.drop layers) item := by
  induction h with
  | item hitem => exact ⟨_, Object.at?_nil _, hitem⟩
  | @row layers extents items hitems ih =>
    rw [List.take_succ_cons, List.forall_mem_cons] at hpos
    obtain ⟨item, hat, hitem⟩ := ih items[0] (List.getElem_mem hpos.1) hpos.2
    refine ⟨item, ?_, hitem⟩
    rw [List.replicate_succ, Object.at?_vector_cons, List.getElem?_eq_getElem hpos.1]
    exact hat

/-- A container of written blocks has extents whether they were written or not. -/
theorem IsLayered.nested {layers : Nat} {extents : List Nat} {v : Object α} (h : s.IsLayered layers extents v) :
    s.IsNested layers extents v := by
  induction h with
  | leaf hleaf =>
    cases hleaf with
    | value a hprimitive => exact .item (.value a hprimitive)
    | block _ b hmatrix hlength hfixed hfits _ => exact .item (.block _ b hmatrix hlength hfixed hfits)
  | row _ ih => exact .row ih

/-- A rectangular container has extents. -/
theorem IsRectangular.hasExtents {extents : List Nat} {v : Object α} (h : s.IsRectangular extents v) :
    s.HasExtents extents v :=
  ⟨h.length_eq, h.layered.nested⟩

/-- The block's part of an index points inside the block. -/
theorem IsRectangular.within_drop {extents index : List Nat} {v : Object α} (h : s.IsRectangular extents v)
    (hindex : Within index extents) : Within (index.drop s.vectorRank) (extents.drop s.vectorRank) := by
  have hlength : s.vectorRank ≤ extents.length := by
    rw [h.length_eq, rank]
    omega
  rw [← List.take_append_drop s.vectorRank extents, within_append, List.length_take,
    Nat.min_eq_left hlength] at hindex
  exact hindex.2

/-- A rectangular container has a scalar at every index. -/
theorem IsRectangular.exists_cell {extents index : List Nat} {v : Object α} (h : s.IsRectangular extents v)
    (hindex : Within index extents) {channel : Nat} (hchannel : channel < s.element.channels) :
    ∃ a, s.cell? v index channel = some a := by
  obtain ⟨leaf, hat, hleaf⟩ := h.layered.exists_leaf hindex
  have hinside := h.within_drop hindex
  generalize extents.drop s.vectorRank = rest at hleaf hinside
  cases hleaf with
  | value a _ => exact ⟨a, by rw [cell?, hat]⟩
  | block _ b _ _ _ _ hcells =>
    obtain ⟨a, ha⟩ := Option.isSome_iff_exists.mp (hcells _ hinside channel hchannel)
    exact ⟨a, by rw [cell?, hat]; exact ha⟩

/-- The indices behind the axes are those of the channels. -/
theorem indices_channelExtents (s : Shape) :
    indices s.channelExtents = (List.range s.element.channels).map s.channelIndex := by
  have hpos := s.element.channels_pos
  unfold channelExtents channelIndex Element.channelAxes
  by_cases hone : s.element.channels = 1
  · rw [if_neg (by omega), hone]
    rfl
  · simp only [if_pos (show 1 < s.element.channels by omega), if_neg hone]
    exact indices_singleton s.element.channels

/-- The writes of a copy go to every cell of the tensor once, in order. -/
theorem IsRectangular.map_fst_writesOf {extents : List Nat} {v : Object α} (h : s.IsRectangular extents v) :
    (s.writesOf v extents).map Prod.fst = indices (mappedExtents (extents ++ s.channelExtents)) := by
  have hcells : (s.writesOf v extents).map Prod.fst =
      (indices extents).flatMap fun index => (List.range s.element.channels).map (s.tensorIndex index) := by
    rw [writesOf, List.map_flatMap]
    apply List.flatMap_congr
    intro index hindex
    rw [elementWrites, List.map_flatMap, ← List.flatMap_pure_eq_map]
    apply List.flatMap_congr
    intro channel hchannel
    obtain ⟨a, ha⟩ := h.exists_cell (mem_indices.mp hindex) (List.mem_range.mp hchannel)
    rw [ha]
    rfl
  have hlength : (extents ++ s.channelExtents).length = s.tensorRank := by
    rw [List.length_append, h.length_eq, channelExtents, List.length_replicate, tensorRank]
  rw [hcells]
  by_cases hrank : s.tensorRank = 0
  · have hnil : extents ++ s.channelExtents = [] := List.length_eq_zero_iff.mp (hlength.trans hrank)
    have hone : s.element.channels = 1 := by
      have hpos := s.element.channels_pos
      rw [tensorRank, Element.channelAxes] at hrank
      split at hrank <;> omega
    rw [hnil, (List.append_eq_nil_iff.mp hnil).1, hone]
    simp [indices, tensorIndex, hrank, mappedExtents]
  · have hmapped : mappedExtents (extents ++ s.channelExtents) = extents ++ s.channelExtents := by
      cases hextents : extents ++ s.channelExtents with
      | nil => simp [hextents] at hlength; omega
      | cons extent rest => rfl
    rw [hmapped, indices_append, indices_channelExtents]
    apply List.flatMap_congr
    intro index _
    rw [List.map_map]
    apply List.map_congr_left
    intro channel _
    rw [tensorIndex, if_neg hrank]
    rfl

/-- Every scalar is written to its cell. -/
theorem IsRectangular.mem_writesOf {extents index : List Nat} {v : Object α} (h : s.IsRectangular extents v)
    (hindex : Within index extents) {channel : Nat} (hchannel : channel < s.element.channels) :
    ∃ a, s.cell? v index channel = some a ∧ (s.tensorIndex index channel, a) ∈ s.writesOf v extents := by
  obtain ⟨a, ha⟩ := h.exists_cell hindex hchannel
  refine ⟨a, ha, List.mem_flatMap.mpr ⟨index, mem_indices.mpr hindex, ?_⟩⟩
  refine List.mem_flatMap.mpr ⟨channel, List.mem_range.mpr hchannel, ?_⟩
  rw [ha]
  exact List.mem_singleton.mpr rfl

end Shape

end TensorBridge
