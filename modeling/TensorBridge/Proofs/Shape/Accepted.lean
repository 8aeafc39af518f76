import TensorBridge.Proofs.Shape.ElementTokens
import TensorBridge.Shape.Reader

/-!
# Accepted shapes

Reading a list of tokens checks how vectors, block and element fit together. The facts about a shape that has
passed these checks are gathered here, so that later modules need not open the reader.
-/

namespace TensorBridge

/-- What the checks of a shape leave: a block exactly around matrix elements, and fixed containers with known
sizes, one axis for a `Vec`, and one channel. -/
structure Shape.IsAccepted (s : Shape) : Prop where
  block_eq_nil_iff : s.block = [] ↔ s.element.isMatrix = false
  fixed_known : s.element.container.isFixed = true → ∀ e ∈ s.block, e.isSome = true
  vec_length : s.element.container = .vec → s.block.length = 1
  fixed_channels : s.element.container.isFixed = true → s.element.channels = 1

/-- A primitive value has one channel. -/
theorem Element.channels_of_primitive {e : Element} (h : e.isMatrix = false) : e.channels = 1 := by
  cases e with
  | primitive type endsLine => rfl
  | matrix depth written container endsLine => simp [Element.isMatrix] at h

/-- A shape of primitive values has no axes besides the vector layers. -/
theorem Shape.IsAccepted.tensorRank_of_primitive {s : Shape} (hs : s.IsAccepted)
    (hprimitive : s.element.isMatrix = false) : s.tensorRank = s.vectorRank := by
  have hblock : s.block = [] := hs.block_eq_nil_iff.mpr hprimitive
  rw [Shape.tensorRank, Shape.rank, Shape.blockRank, hblock, Element.channelAxes,
    Element.channels_of_primitive hprimitive]
  rfl

/-- Dimensions without a flaw make an accepted shape, if the element is in order. -/
theorem Shape.isAccepted_of_flaw? {dims : List Dim} {element : Element} (h : Shape.flaw? dims element = none)
    (hchannels : element.container.isFixed = true → element.channels = 1) :
    (Shape.ofDims dims element).IsAccepted := by
  unfold Shape.flaw? at h
  dsimp only at h
  split at h
  · cases h
  split at h
  · cases h
  have hnil : (Shape.ofDims dims element).block = [] ↔ (dims.dropWhile Dim.isVector).isEmpty = true := by
    simp [Shape.ofDims]
  split at h
  · next hmatrix =>
    split at h
    · cases h
    next hblock =>
    split at h
    · cases h
    next hknown =>
    split at h
    · cases h
    next hvec =>
    refine ⟨?_, ?_, ?_, hchannels⟩
    · simpa [hnil, Shape.ofDims, hmatrix] using hblock
    · intro hfixed e he
      change element.container.isFixed = true at hfixed
      obtain ⟨d, hd, rfl⟩ := List.mem_map.mp he
      simp only [hfixed, Bool.true_and, Bool.not_eq_true, List.any_eq_false] at hknown
      simpa [Dim.isDynamic] using hknown d hd
    · intro hcontainer
      change element.container = .vec at hcontainer
      have hlong : ¬ 1 < (dims.dropWhile Dim.isVector).length := fun hlt => hvec ⟨hcontainer, hlt⟩
      have hpos : dims.dropWhile Dim.isVector ≠ [] := by simpa using hblock
      have := List.length_pos_iff.mpr hpos
      simp only [Shape.ofDims, List.length_map]
      omega
  · next hmatrix =>
    split at h
    · next hblock =>
      have hmat : element.container = .mat := by
        cases element with
        | primitive type endsLine => rfl
        | matrix depth written container endsLine => simp [Element.isMatrix] at hmatrix
      refine ⟨?_, ?_, ?_, hchannels⟩
      · rw [hnil, hblock]
        simpa [Shape.ofDims] using hmatrix
      · intro hfixed
        simp [Shape.ofDims, hmat, Container.isFixed] at hfixed
      · intro hvec
        simp [Shape.ofDims, hmat] at hvec
    · cases h

/-- Tokens that are read describe an accepted shape. -/
theorem Shape.isAccepted_of_ofTokens {tokens : List Value} {s : Shape} (h : Shape.ofTokens tokens = .ok s) :
    s.IsAccepted := by
  unfold Shape.ofTokens at h
  split at h
  · cases h
  · obtain ⟨element, helement, h⟩ := except_bind_eq_ok.mp h
    obtain ⟨dims, _, h⟩ := except_bind_eq_ok.mp h
    split at h
    · cases h
    · next hflaw =>
      cases h
      exact Shape.isAccepted_of_flaw? hflaw fun hfixed => Element.channels_of_ofToken helement hfixed

end TensorBridge
