import TensorBridge.Proofs.Kernel.Sites

/-!
# Indices of a tensor and of its blocks

The conversions of an operand look at its tensor with one index for each axis. An index is the variable of the loop
over its axis, a channel, or, where the end of a row is looked for, zero behind the row. A block is looked at with one
loop variable for each of its own axes.
-/

namespace TensorBridge

namespace Names

variable (n : Names) (s : Shape) (around : List Binding)

/-- The variable of an axis is bound by exactly one loop, which runs up to the size of the axis, and by nothing else. -/
def IsCounted (axis : Nat) : Prop := (around.filter fun b => b.name = n.index axis) = [n.axisBinding axis]

/-- An index of the tensor, axis by axis; a tensor without axes has the index zero. -/
structure IsTensorIndex (index : List Expr) : Prop where
  length : index.length = max 1 s.tensorRank
  lone : s.tensorRank = 0 → index = [.count 0]
  axes : ∀ axis < s.rank, index[axis]? = some (.name (n.index axis)) ∧ n.IsCounted around axis
  channel : 1 < s.element.channels → ∃ channel < s.element.channels, index[s.rank]? = some (.count channel)

/-- An index at which the end of a row is looked for: zero behind the axis of the innermost loop. -/
structure IsRowIndex (axis : Nat) (index : List Expr) : Prop where
  layer : axis < s.vectorRank
  innermost : around.getLast? = some (n.axisBinding axis)
  length : index.length = s.tensorRank
  axes : ∀ outer ≤ axis, index[outer]? = some (.name (n.index outer)) ∧ n.IsCounted around outer
  behind : ∀ inner, axis < inner → inner < s.tensorRank → index[inner]? = some (.count 0)

/-- An index of a block, axis by axis. -/
structure IsElementIndex (index : List Expr) : Prop where
  length : index.length = s.blockRank
  axes : ∀ offset < s.blockRank, index[offset]? = some (.name (n.index (s.vectorRank + offset : Nat))) ∧
    n.IsCounted around (s.vectorRank + offset)

end Names

/-- A part of an expression that is no access, or an access to the tensor or to a block with one index for each
axis. -/
def Expr.IsWellIndexed (n : Names) (s : Shape) (around : List Binding) : Expr → Prop
  | .call (.name function) index => function = n.dataIn ∨ function = n.dataOut → n.IsTensorIndex s around index
  | .element _ _ index _ => n.IsElementIndex s around index
  | _ => True

/-- An expression all of whose accesses have one index for each axis, or the test whether a row has ended. -/
def Site.IsWellIndexed (n : Names) (s : Shape) (site : Site) : Prop :=
  site.expr.Every (Expr.IsWellIndexed n s site.around) ∨
    ∃ axis index, site.expr = .callNamed "std::isnan" [.callNamed n.dataIn index] ∧
      n.IsRowIndex s site.around axis index

section Indices

variable {n : Names} {s : Shape} {around : List Binding}

/-- The variables of the open loops are bound by their own loops only. -/
theorem Names.Counts.isCounted {count axis : Nat} (h : n.Counts around count) (haxis : axis < count) :
    n.IsCounted around axis := by
  rw [Names.IsCounted, h axis, if_pos haxis]

/-- The loop variables of some axes, one by one. -/
theorem Names.getElem?_indices {first count axis : Nat} (haxis : axis < count) :
    (n.indices first count)[axis]? = some (.name (n.index (first + axis : Nat))) := by
  rw [Names.indices, List.getElem?_map, List.getElem?_range' haxis]
  simp

/-- The number of loop variables. -/
theorem Names.length_indices (first count : Nat) : (n.indices first count).length = count := by
  simp [Names.indices]

/-- There is a tensor axis behind the others if there are several channels. -/
theorem Shape.tensorRank_eq (s : Shape) : s.tensorRank = s.rank + if s.element.channels = 1 then 0 else 1 := by
  have hpos := s.element.channels_pos
  rw [tensorRank, Element.channelAxes]
  split <;> split <;> omega

/-- The index of a copy in a tensor of blocks has one entry for each axis. -/
theorem isTensorIndex_of_block (hrank : 0 < s.rank) (hcounts : n.Counts around s.rank) {channel : Nat}
    (hchannel : channel < s.element.channels) :
    n.IsTensorIndex s around (n.indices 0 s.rank ++ (s.channelIndex channel).map Expr.count) := by
  have hlength : (n.indices 0 s.rank).length = s.rank := n.length_indices 0 s.rank
  have htensor := s.tensorRank_eq
  constructor
  · rw [List.length_append, hlength, List.length_map, Shape.channelIndex, htensor]
    split
    · simp only [List.length_nil]
      omega
    · simp only [List.length_singleton]
      omega
  · intro hzero
    omega
  · intro axis haxis
    refine ⟨?_, hcounts.isCounted haxis⟩
    rw [List.getElem?_append_left (by omega), Names.getElem?_indices haxis, Nat.zero_add]
  · intro hseveral
    refine ⟨channel, hchannel, ?_⟩
    rw [List.getElem?_append_right (by omega), hlength, Nat.sub_self, Shape.channelIndex, if_neg (by omega)]
    rfl

/-- The index of a copy in a tensor of primitive values has one entry for each axis. -/
theorem isTensorIndex_of_primitive (hs : s.IsAccepted) (hprimitive : s.element.isMatrix = false) {count : Nat}
    (hcount : s.vectorRank ≤ count) (hcounts : n.Counts around count) :
    n.IsTensorIndex s around (primitiveIndex n s) := by
  have htensor := hs.tensorRank_of_primitive hprimitive
  have hone := Element.channels_of_primitive hprimitive
  have hrank : s.rank = s.vectorRank := by
    have heq := s.tensorRank_eq
    rw [if_pos hone] at heq
    omega
  unfold primitiveIndex
  split
  · next hempty =>
    have hzero : s.vectorRank = 0 := by
      rw [Shape.vectorRank, List.isEmpty_iff.mp hempty]
      rfl
    constructor
    · rw [htensor, hzero]
      rfl
    · exact fun _ => rfl
    · intro axis haxis
      omega
    · intro hseveral
      omega
  · next hsome =>
    have hpos : 0 < s.vectorRank := by
      rw [Shape.vectorRank, List.length_pos_iff]
      exact fun hnil => hsome (List.isEmpty_iff.mpr hnil)
    constructor
    · rw [n.length_indices, htensor]
      omega
    · intro hzero
      omega
    · intro axis haxis
      refine ⟨?_, hcounts.isCounted (by omega)⟩
      rw [Names.getElem?_indices (by omega), Nat.zero_add]
    · intro hseveral
      omega

/-- The index of a copy has one entry for each axis of the tensor. -/
theorem Names.IsCopyIndex.isTensorIndex (hs : s.IsAccepted) {index : List Expr} (h : n.IsCopyIndex s around index) :
    n.IsTensorIndex s around index := by
  unfold Names.IsCopyIndex at h
  rw [s.hasBlock_eq] at h
  split at h
  · next hmatrix =>
    obtain ⟨hcounts, channel, hchannel, rfl⟩ := h
    have hblock : s.block ≠ [] := by
      intro hnil
      rw [hs.block_eq_nil_iff.mp hnil] at hmatrix
      cases hmatrix
    have hrank : 0 < s.rank := by
      have hpos := List.length_pos_iff.mpr hblock
      rw [Shape.rank, Shape.blockRank]
      omega
    exact isTensorIndex_of_block hrank hcounts hchannel
  · next hprimitive =>
    obtain ⟨⟨count, hcount, hcounts⟩, rfl⟩ := h
    exact isTensorIndex_of_primitive hs (Bool.eq_false_iff.mpr hprimitive) hcount hcounts

/-- The index of an element has one entry for each axis of the block. -/
theorem Names.IsBlockIndex.isElementIndex {index : List Expr} (h : n.IsBlockIndex s around index) :
    n.IsElementIndex s around index := by
  obtain ⟨hcounts, rfl⟩ := h
  refine ⟨n.length_indices _ _, fun offset hoffset => ⟨Names.getElem?_indices hoffset, hcounts.isCounted ?_⟩⟩
  rw [Shape.rank]
  omega

/-- The index at which the end of a row is looked for is zero behind the row. -/
theorem Names.IsProbeIndex.isRowIndex {index : List Expr} (h : n.IsProbeIndex s around index) :
    ∃ axis, n.IsRowIndex s around axis index := by
  obtain ⟨axis, haxis, hcounts, hlast, rfl⟩ := h
  have hlength : (n.indices 0 (axis + 1)).length = axis + 1 := n.length_indices 0 (axis + 1)
  have hrank : s.vectorRank ≤ s.tensorRank := by
    rw [Shape.tensorRank, Shape.rank]
    omega
  refine ⟨axis, haxis, hlast, ?_, ?_, ?_⟩
  · rw [List.length_append, hlength, zeroIndices, List.length_replicate]
    omega
  · intro outer houter
    refine ⟨?_, hcounts.isCounted (by omega)⟩
    rw [List.getElem?_append_left (by omega), Names.getElem?_indices (by omega), Nat.zero_add]
  · intro inner hinner hlt
    rw [List.getElem?_append_right (by omega), hlength, zeroIndices, List.getElem?_replicate, if_pos (by omega)]

/-- What a conversion of an accepted shape evaluates has one index for each axis. -/
theorem Site.IsPlaced.isWellIndexed (hs : s.IsAccepted) {site : Site} (h : site.IsPlaced n s) :
    site.IsWellIndexed n s := by
  obtain ⟨methods, h | ⟨_, index, hexpr, hprobe⟩⟩ := h
  · refine .inl (h.imp fun part hpart => ?_)
    cases part with
    | call function index =>
      cases function with
      | name function => exact fun hdata => (hpart hdata).isTensorIndex hs
      | _ => trivial
    | element base container index valueType => exact Names.IsBlockIndex.isElementIndex hpart
    | _ => trivial
  · obtain ⟨axis, hrow⟩ := hprobe.isRowIndex
    exact .inr ⟨axis, index, hexpr, hrow⟩

end Indices

end TensorBridge
