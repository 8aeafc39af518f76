import TensorBridge.Proofs.Machine.Object
import TensorBridge.Proofs.Shape.Accepted

/-!
# The objects of a shape

What the type of a shape's value says about the objects that hold it, and how the axes of the shape's block lie
in such an object. They are the same, except that a `Matx` of one axis is a single row: its object has an axis
of extent one in front.
-/

namespace TensorBridge

variable {α : Type}

namespace Shape

/-- Whether the block of a shape is a single row of a `Matx`. -/
def isRow (s : Shape) : Bool := s.element.container == .matx && s.blockRank == 1

/-- The extents that an object for a block has. -/
def boxed (s : Shape) (extents : List Nat) : List Nat := if s.isRow then 1 :: extents else extents

/-- The place in such an object that an index of the block means. -/
def placeOf (s : Shape) (index : List Nat) : List Nat := if s.isRow then 0 :: index else index

/-- The index of the block that a place means. -/
def indexOf (s : Shape) (place : List Nat) : List Nat := if s.isRow then place.drop 1 else place

/-- The extents of a block whose container fixes them. -/
def fixedExtents (s : Shape) : List Nat := s.block.map (·.getD 0)

/-- The type of what lies inside the vector layers. -/
def coreType (s : Shape) : ObjectType :=
  if s.element.isMatrix = false then .scalar s.element.scalarName
  else if s.element.container.isFixed then
    .fixed s.element.container s.element.scalarName (s.boxed s.fixedExtents)
  else .mat

/-- The extents of a `Mat` are those of the block. -/
theorem boxed_of_not_fixed {s : Shape} (h : s.element.container.isFixed = false) (extents : List Nat) :
    s.boxed extents = extents := by
  have hcontainer : s.element.container = .mat := by simpa [Container.isFixed] using h
  rw [boxed, isRow, hcontainer]
  rfl

/-- Each index of a block has its own place. -/
theorem indexOf_placeOf (s : Shape) (index : List Nat) : s.indexOf (s.placeOf index) = index := by
  unfold indexOf placeOf
  split <;> rfl

/-- A place lies inside the object where its index lies inside the block. -/
theorem within_placeOf (s : Shape) {index extents : List Nat} (h : Within index extents) :
    Within (s.placeOf index) (s.boxed extents) := by
  unfold placeOf boxed
  split
  · exact List.Forall₂.cons Nat.one_pos h
  · exact h

/-- Every place inside the object is the one of an index. -/
theorem exists_placeOf (s : Shape) {place extents : List Nat} (h : Within place (s.boxed extents)) :
    Within (s.indexOf place) extents ∧ s.placeOf (s.indexOf place) = place := by
  unfold placeOf boxed indexOf at *
  split
  · next hrow =>
    rw [if_pos hrow] at h
    cases h with
    | cons hi htail =>
      obtain rfl := Nat.lt_one_iff.mp hi
      exact ⟨htail, rfl⟩
  · next hrow =>
    rw [if_neg hrow] at h
    exact ⟨h, rfl⟩

/-- An access with an index of the block reaches the place of the index. -/
theorem place_boxed (s : Shape) {index extents : List Nat} (h : Within index extents)
    (hrank : extents.length = s.blockRank) :
    s.element.container.place (s.boxed extents) index = s.placeOf index := by
  unfold boxed placeOf isRow
  cases hcontainer : s.element.container with
  | mat => rfl
  | vec => rfl
  | matx =>
    by_cases hone : s.blockRank = 1
    · rw [hone, List.length_eq_one_iff] at hrank
      obtain ⟨extent, rfl⟩ := hrank
      obtain ⟨i, hindex⟩ := List.length_eq_one_iff.mp h.length_eq
      simp [hone, hindex, Container.place]
    · have hlength : index.length ≠ 1 := by rw [h.length_eq, hrank]; exact hone
      simp only [beq_self_eq_true, Bool.true_and, beq_iff_eq, hone, ↓reduceIte]
      unfold Container.place
      split
      · next column => exact absurd rfl hlength
      · rfl

/-- An access to an element of a shape's block finds its place. -/
theorem select?_block {s : Shape} (hmatrix : s.element.isMatrix = true) {b : Block α}
    (hcontainer : b.container = s.element.container) (helement : b.element = s.element.objectType)
    {index extents : List Nat} (hextents : b.extents = s.boxed extents) (h : Within index extents)
    (hrank : extents.length = s.blockRank) :
    b.select? s.element.container index s.element.valueType = some (s.placeOf index) := by
  unfold Block.select?
  simp only [hextents, s.place_boxed h hrank]
  rw [if_pos]
  refine ⟨hcontainer, fun _ => ?_, s.within_placeOf h⟩
  rw [helement, Element.ofText_valueType hmatrix]

/-! ## The texts of types -/

/-- Known extents are printed as numbers. -/
theorem map_extentText {extents : List Extent} (h : ∀ e ∈ extents, e.isSome = true) :
    extents.map extentText = (extents.map (·.getD 0)).map toString := by
  rw [List.map_map]
  apply List.map_congr_left
  intro e he
  obtain ⟨n, rfl⟩ := Option.isSome_iff_exists.mp (h e he)
  rfl

/-- A list with a first item, written out. -/
theorem commaList_cons {item : String} {rest : List String} (h : rest ≠ []) :
    commaList (item :: rest) = item ++ ", " ++ commaList rest := by
  cases rest with
  | nil => contradiction
  | cons next rest => exact String.intercalate_cons_cons

/-- A value holds blocks if its element is one of a matrix. -/
theorem hasBlock_eq (s : Shape) : s.hasBlock = s.element.isMatrix := by
  unfold hasBlock kind
  cases s.element.isMatrix <;> cases s.vectors.isEmpty <;> rfl

/-- The text of a fixed block's type lists the sizes of the object. -/
theorem blockType_eq {s : Shape} (hs : s.IsAccepted) (hfixed : s.element.container.isFixed = true) :
    s.blockType =
      s.element.container.name ++ "<" ++ s.element.scalar ++ ", " ++
        commaList ((s.boxed s.fixedExtents).map toString) ++ ">" := by
  have hsizes := map_extentText (hs.fixed_known hfixed)
  cases hcontainer : s.element.container with
  | mat => simp [hcontainer, Container.isFixed] at hfixed
  | vec => simp [blockType, boxed, isRow, fixedExtents, hcontainer, hsizes]
  | matx =>
    by_cases hone : s.block.length = 1
    · simp [blockType, boxed, isRow, blockRank, fixedExtents, hcontainer, hsizes, hone]
      rfl
    · simp [blockType, boxed, isRow, blockRank, fixedExtents, hcontainer, hsizes, hone]

/-- The text of a fixed block's type is read back. -/
theorem ofText_blockType {s : Shape} (hs : s.IsAccepted) (hfixed : s.element.container.isFixed = true) :
    ObjectType.ofText s.blockType =
      some (.fixed s.element.container s.element.scalarName (s.boxed s.fixedExtents)) := by
  have hsizes : (s.boxed s.fixedExtents).map toString ≠ [] := by
    have hblock : s.block ≠ [] := by
      intro hnil
      have hprimitive := hs.block_eq_nil_iff.mp hnil
      cases helement : s.element with
      | primitive type endsLine => simp [helement, Element.container, Container.isFixed] at hfixed
      | matrix depth written container endsLine => simp [helement, Element.isMatrix] at hprimitive
    simp only [ne_eq, List.map_eq_nil_iff, boxed, fixedExtents]
    split <;> simp [hblock]
  cases helement : s.element with
  | primitive type endsLine => simp [helement, Element.container, Container.isFixed] at hfixed
  | matrix depth written container endsLine =>
    have hread := ofText_fixed hfixed (Element.isArgument_scalar depth) (s.boxed s.fixedExtents)
    rw [commaList_cons hsizes] at hread
    rw [blockType_eq hs hfixed]
    rw [helement] at hread ⊢
    simpa only [String.append_assoc, Element.scalar, Element.scalarName, Element.container] using hread

/-- The declared type of a shape's value is read as the layers around its core. -/
theorem ofText_declaredType {s : Shape} (hs : s.IsAccepted) :
    ObjectType.ofText s.declaredType = some (s.coreType.layered s.vectorRank) := by
  refine ObjectType.ofText_vectorType ?_ s.vectorRank
  rw [hasBlock_eq]
  unfold coreType
  cases helement : s.element with
  | primitive type endsLine => exact Element.ofText_scalar_primitive type endsLine
  | matrix depth written container endsLine =>
    rw [← helement]
    have hmatrix : s.element.isMatrix = true := by rw [helement]; rfl
    rw [if_pos hmatrix, if_neg (by simp [hmatrix])]
    cases hfixed : s.element.container.isFixed with
    | true => exact ofText_blockType hs hfixed
    | false =>
      have hcontainer : s.element.container = .mat := by simpa [Container.isFixed] using hfixed
      simp only [blockType, hcontainer]
      rw [ObjectType.ofText, ObjectType.ofChars_of_none rfl]
      rfl

end Shape

end TensorBridge
