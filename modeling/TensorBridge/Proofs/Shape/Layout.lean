import TensorBridge.Proofs.Shape.Blocks

/-!
# Layouts

Which lists of tokens describe a shape, and which shape it is. The last token has to be an element and the others
dimensions. Whether they fit together is said here by how the dimensions follow each other and how many there are of
each kind; the reader decides it by the stretch of vector layers in front and what is left behind it.
-/

namespace TensorBridge

/-- Tokens that are read as dimensions and, at the end, an element. -/
def ReadAs (tokens : List Value) (dims : List Dim) (element : Element) : Prop :=
  ∃ front last, tokens = front ++ [last] ∧ List.Forall₂ (fun token d => Dim.ofToken token = .ok d) front dims ∧
    Element.ofToken last = .ok element

/-- Dimensions that can stand around an element: vector layers come first, the tensor has at most 254 axes with the
one for several channels, and there are axes of a block exactly for a matrix element; a fixed container needs to know
them, and a `Vec` has one. -/
structure IsLayout (dims : List Dim) (element : Element) : Prop where
  vectors_first : dims.Pairwise fun d later => later.isVector = true → d.isVector = true
  rank_le : dims.length + (if 1 < element.channels then 1 else 0) ≤ 254
  block_iff : (∃ d ∈ dims, d.isVector = false) ↔ element.isMatrix = true
  fixed_known : element.container.isFixed = true → ∀ d ∈ dims, d.isVector = false → d.isDynamic = false
  vec_axis : element.container = .vec → dims.countP (!·.isVector) = 1

/-- The C++ type of one block, as a text for each container. A `Matx` of one axis is a single row. -/
def blockText (element : Element) (sizes : List Nat) : String :=
  match element.container with
  | .mat => "Mat"
  | .matx =>
    "Matx<" ++ element.scalar ++ ", " ++
      commaList ((if sizes.length = 1 then 1 :: sizes else sizes).map toString) ++ ">"
  | .vec => "Vec<" ++ element.scalar ++ ", " ++ commaList (sizes.map toString) ++ ">"

/-- A text inside some pairs of `vector<` and `>`. -/
def wrapped (core : String) (layers : Nat) : String :=
  String.join (List.replicate layers "vector<") ++ core ++ String.join (List.replicate layers ">")

/-- What a shape is for the dimensions and the element that it was read from. -/
structure Shape.IsOf (s : Shape) (dims : List Dim) (element : Element) : Prop where
  element_eq : s.element = element
  dims_eq : s.dims = dims
  vectorRank_eq : s.vectorRank = dims.countP Dim.isVector
  vectors_prefix : ∀ d ∈ dims.take s.vectorRank, d.isVector = true
  block_suffix : dims.drop s.vectorRank = s.block.map .block
  rank_eq : s.vectorRank + s.blockRank = s.rank ∧ s.rank = dims.length
  tensorRank_eq : s.tensorRank = if 1 < element.channels then s.rank + 1 else s.rank
  kind_eq : s.kind =
    match element.isMatrix, dims.any Dim.isVector with
    | false, false => .scalar
    | false, true => .vectorOfPrimitive
    | true, true => .vectorOfMatrix
    | true, false => .matrix
  blockType_primitive : element.isMatrix = false → s.blockType? = none
  blockType_matrix : element.isMatrix = true → s.blockType? = some (blockText element s.fixedExtents)
  declaredType_eq : s.declaredType = wrapped (s.blockType?.getD element.scalar) s.vectorRank

/-! ## Vector layers in front -/

namespace Dim

/-- The dimensions of a list of tokens are read one by one. -/
theorem ofTokens_eq_mapM (tokens : List Value) : Dim.ofTokens tokens = tokens.mapM Dim.ofToken := by
  induction tokens with
  | nil => rfl
  | cons token rest ih => rw [Dim.ofTokens, List.mapM_cons, ih]

/-- The dimensions of a list of tokens are those of each. -/
theorem ofTokens_eq_ok {tokens : List Value} {dims : List Dim} :
    Dim.ofTokens tokens = .ok dims ↔ List.Forall₂ (fun token d => Dim.ofToken token = .ok d) tokens dims := by
  rw [ofTokens_eq_mapM]
  exact except_mapM_eq_ok

/-- A vector layer is given by its extent. -/
theorem vector_extent {d : Dim} (h : d.isVector = true) : Dim.vector d.extent = d := by
  cases d with
  | vector e => rfl
  | block e => cases h

/-- An axis of a block is given by its extent. -/
theorem block_extent {d : Dim} (h : d.isVector = false) : Dim.block d.extent = d := by
  cases d with
  | vector e => cases h
  | block e => rfl

variable {dims : List Dim}

/-- Vector layers come first exactly if there are none behind the first stretch of them. -/
theorem vectors_first_iff :
    (dims.Pairwise fun d later => later.isVector = true → d.isVector = true) ↔
      (dims.dropWhile Dim.isVector).any Dim.isVector = false := by
  induction dims with
  | nil => simp
  | cons d rest ih =>
    rw [List.pairwise_cons]
    cases hd : d.isVector with
    | true => simp [List.dropWhile_cons_of_pos hd, ih]
    | false =>
      rw [List.dropWhile_cons_of_neg (by simp [hd]), List.any_cons, hd, Bool.false_or]
      constructor
      · rintro ⟨hlater, _⟩
        simpa using hlater
      · intro hrest
        have hnone : ∀ later ∈ rest, ¬ later.isVector = true := by simpa using hrest
        refine ⟨fun later hlater hvector => absurd hvector (hnone later hlater), ?_⟩
        exact List.pairwise_of_forall_mem_list fun _ _ later hlater hvector => absurd hvector (hnone later hlater)

/-- Where vector layers come first, the stretch in front holds all of them, and the rest all axes of the block. -/
theorem stretches_eq_filter (h : dims.Pairwise fun d later => later.isVector = true → d.isVector = true) :
    dims.takeWhile Dim.isVector = dims.filter Dim.isVector ∧
      dims.dropWhile Dim.isVector = dims.filter (!·.isVector) := by
  induction dims with
  | nil => exact ⟨rfl, rfl⟩
  | cons d rest ih =>
    obtain ⟨hlater, hrest⟩ := List.pairwise_cons.mp h
    cases hd : d.isVector with
    | true => simp [hd, ih hrest]
    | false =>
      have hnone : ∀ later ∈ rest, later.isVector = false := fun later hmem => by
        simpa [hd] using hlater later hmem
      have hall : rest.filter (!·.isVector) = rest :=
        List.filter_eq_self.mpr fun later hmem => by simp [hnone later hmem]
      have hempty : rest.filter Dim.isVector = [] :=
        List.filter_eq_nil_iff.mpr fun later hmem => by simp [hnone later hmem]
      simp [hd, hall, hempty]

end Dim

/-! ## Layouts and shapes -/

/-- The only container of a primitive value is the default one. -/
theorem Element.container_of_primitive {e : Element} (h : e.isMatrix = false) : e.container = .mat := by
  cases e with
  | primitive type endsLine => rfl
  | matrix depth written container endsLine => cases h

/-- Several nested pairs around a text. -/
theorem vectorType_eq_wrapped (core : String) (layers : Nat) : vectorType core layers = wrapped core layers := by
  induction layers with
  | zero => simp [vectorType, wrapped]
  | succ layers ih =>
    have hlast : String.join (List.replicate (layers + 1) ">") = String.join (List.replicate layers ">") ++ ">" := by
      rw [List.replicate_succ', String.join_append]
      rfl
    rw [vectorType, ih, wrapped, wrapped, hlast, List.replicate_succ, String.join_cons]
    simp only [String.append_assoc]

namespace Shape

variable {dims : List Dim} {element : Element}

/-- Whether there is anything behind the vector layers is whether there are axes of a block. -/
theorem isEmpty_filter_block : (dims.filter (!·.isVector)).isEmpty = false ↔ ∃ d ∈ dims, d.isVector = false := by
  rw [List.isEmpty_eq_false_iff, ne_eq, List.filter_eq_nil_iff]
  simp

/-- With vector layers in front, all that is left to check is what lies behind them. -/
theorem isLayout_iff_of_vectors_first
    (hfirst : dims.Pairwise fun d later => later.isVector = true → d.isVector = true)
    (hrank : dims.length + (if 1 < element.channels then 1 else 0) ≤ 254) :
    IsLayout dims element ↔
      ((∃ d ∈ dims, d.isVector = false) ↔ element.isMatrix = true) ∧
        (element.container.isFixed = true → ∀ d ∈ dims, d.isVector = false → d.isDynamic = false) ∧
          (element.container = .vec → dims.countP (!·.isVector) = 1) :=
  ⟨fun h => ⟨h.block_iff, h.fixed_known, h.vec_axis⟩, fun h => ⟨hfirst, hrank, h.1, h.2.1, h.2.2⟩⟩

/-- The reader finds no flaw exactly in a layout. -/
theorem flaw?_eq_none_iff : flaw? dims element = none ↔ IsLayout dims element := by
  unfold flaw?
  dsimp only
  by_cases hrank : maxRank < dims.length + element.channelAxes
  · simp only [if_pos hrank, reduceCtorEq, false_iff]
    exact fun h => absurd h.rank_le (Nat.not_le.mpr hrank)
  by_cases hfirst : dims.Pairwise fun d later => later.isVector = true → d.isVector = true
  swap
  · have hany : (dims.dropWhile Dim.isVector).any Dim.isVector = true := by
      simpa using fun h => hfirst (Dim.vectors_first_iff.mpr h)
    simp only [if_neg hrank, if_pos hany, reduceCtorEq, false_iff]
    exact fun h => hfirst h.vectors_first
  obtain ⟨hvectors, hblock⟩ := Dim.stretches_eq_filter hfirst
  have hany : (dims.dropWhile Dim.isVector).any Dim.isVector = false := Dim.vectors_first_iff.mp hfirst
  rw [isLayout_iff_of_vectors_first hfirst (Nat.not_lt.mp hrank), if_neg hrank, hany, if_neg Bool.false_ne_true,
    hvectors, hblock]
  cases hempty : (dims.filter (!·.isVector)).isEmpty with
  | true =>
    have hnone : ¬ ∃ d ∈ dims, d.isVector = false := by simp [← isEmpty_filter_block, hempty]
    cases hmatrix : element.isMatrix with
    | true => simp [hnone]
    | false => simp [hnone, Element.container_of_primitive hmatrix, Container.isFixed]
  | false =>
    have hblock : ∃ d ∈ dims, d.isVector = false := isEmpty_filter_block.mp hempty
    cases hmatrix : element.isMatrix with
    | false => simp [hblock]
    | true =>
      have hknown : (element.container.isFixed && (dims.filter (!·.isVector)).any Dim.isDynamic) = false ↔
          (element.container.isFixed = true → ∀ d ∈ dims, d.isVector = false → d.isDynamic = false) := by
        cases element.container.isFixed <;> simp
      have haxis : ¬ (element.container = .vec ∧ 1 < (dims.filter (!·.isVector)).length) ↔
          (element.container = .vec → dims.countP (!·.isVector) = 1) := by
        have hpos : 0 < dims.countP (!·.isVector) := by simpa [List.countP_pos_iff] using hblock
        rw [not_and, ← List.countP_eq_length_filter]
        exact imp_congr_right fun _ => by omega
      rw [← hknown, ← haxis]
      simp only [hblock, ↓reduceIte, Bool.false_eq_true, true_and]
      split
      · next h => simp only [h, reduceCtorEq, Bool.true_eq_false, false_and]
      · next h =>
        split
        · next h' => simp only [not_not.mpr h', reduceCtorEq, and_false]
        · next h' => simp only [h, h', not_false_eq_true, and_self]

/-! ## The shape of a layout -/

/-- The stretches of a shape's dimensions are its vector layers and its block. -/
theorem stretches_dims (s : Shape) :
    s.dims.takeWhile Dim.isVector = s.vectors.map .vector ∧ s.dims.dropWhile Dim.isVector = s.block.map .block := by
  have hvector : ∀ d ∈ s.vectors.map Dim.vector, d.isVector = true := by simp [Dim.isVector]
  rw [dims, List.takeWhile_append_of_pos hvector, List.dropWhile_append_of_pos hvector]
  cases s.block <;> simp [Dim.isVector]

/-- A shape is found again from its dimensions and its element. -/
theorem ofDims_dims (s : Shape) : ofDims s.dims s.element = s := by
  have hvector : Dim.extent ∘ Dim.vector = id := rfl
  have hblock : Dim.extent ∘ Dim.block = id := rfl
  rw [ofDims, s.stretches_dims.1, s.stretches_dims.2, List.map_map, List.map_map, hvector, hblock, List.map_id,
    List.map_id]

/-- The shape of dimensions in order has these dimensions. -/
theorem dims_ofDims (hfirst : dims.Pairwise fun d later => later.isVector = true → d.isVector = true) :
    (ofDims dims element).dims = dims := by
  obtain ⟨htake, hdrop⟩ := Dim.stretches_eq_filter hfirst
  have hvectors : ((dims.takeWhile Dim.isVector).map Dim.extent).map Dim.vector = dims.takeWhile Dim.isVector := by
    rw [List.map_map, htake]
    exact (List.map_congr_left fun d hd => Dim.vector_extent (List.mem_filter.mp hd).2).trans (List.map_id _)
  have hblock : ((dims.dropWhile Dim.isVector).map Dim.extent).map Dim.block = dims.dropWhile Dim.isVector := by
    rw [List.map_map, hdrop]
    exact (List.map_congr_left fun d hd => Dim.block_extent (by simpa using (List.mem_filter.mp hd).2)).trans
      (List.map_id _)
  rw [Shape.dims, ofDims, hvectors, hblock, List.takeWhile_append_dropWhile]

/-- The type of a block is the text for its container. -/
theorem blockType_eq_blockText {s : Shape} (hs : s.IsAccepted) : s.blockType = blockText s.element s.fixedExtents := by
  have hlength : s.fixedExtents.length = s.blockRank := List.length_map _
  cases hcontainer : s.element.container with
  | mat => simp [blockType, blockText, hcontainer]
  | matx =>
    rw [blockType_eq hs (by rw [hcontainer]; rfl), blockText, hcontainer]
    simp [boxed, isRow, hcontainer, hlength, Container.name]
  | vec =>
    rw [blockType_eq hs (by rw [hcontainer]; rfl), blockText, hcontainer]
    simp [boxed, isRow, hcontainer, Container.name]

/-- An accepted shape is the one of its dimensions and its element. -/
theorem isOf_dims {s : Shape} (hs : s.IsAccepted) : s.IsOf s.dims s.element where
  element_eq := rfl
  dims_eq := rfl
  vectorRank_eq := by
    have hvector : ∀ d ∈ s.vectors.map Dim.vector, d.isVector = true := by simp [Dim.isVector]
    have hblock : ∀ d ∈ s.block.map Dim.block, ¬ d.isVector = true := by simp [Dim.isVector]
    rw [dims, List.countP_append, List.countP_eq_length.mpr hvector, List.countP_eq_zero.mpr hblock, List.length_map]
    rfl
  vectors_prefix := by
    have htake : s.dims.take s.vectorRank = s.vectors.map .vector := List.take_left' (List.length_map _)
    simp [htake, Dim.isVector]
  block_suffix := List.drop_left' (List.length_map _)
  rank_eq := ⟨rfl, by simp [rank, vectorRank, blockRank, dims]⟩
  tensorRank_eq := by
    rw [tensorRank, Element.channelAxes]
    split <;> rfl
  kind_eq := by
    have hany : s.dims.any Dim.isVector = !s.vectors.isEmpty := by
      cases hvectors : s.vectors <;> simp [dims, hvectors, Dim.isVector]
    rw [hany, kind]
    cases s.element.isMatrix <;> cases s.vectors.isEmpty <;> rfl
  blockType_primitive := by
    intro hprimitive
    rw [blockType?, hasBlock_eq, hprimitive]
    rfl
  blockType_matrix := by
    intro hmatrix
    rw [blockType?, hasBlock_eq, hmatrix, if_pos rfl, blockType_eq_blockText hs]
  declaredType_eq := by
    rw [declaredType, vectorType_eq_wrapped, blockType?]
    cases s.hasBlock <;> rfl

/-- Reading takes the tokens apart, looks for a flaw, and makes the shape of the dimensions. -/
theorem ofTokens_eq_ok_iff {tokens : List Value} {s : Shape} :
    Shape.ofTokens tokens = .ok s ↔
      ∃ dims element, ReadAs tokens dims element ∧ IsLayout dims element ∧ s = ofDims dims element := by
  rcases List.eq_nil_or_concat tokens with rfl | ⟨front, last, rfl⟩
  · constructor
    · intro h
      cases h
    · rintro ⟨dims, element, ⟨front, last, htokens, _⟩, _⟩
      simp at htokens
  rw [List.concat_eq_append, Shape.ofTokens, List.getLast?_concat, List.dropLast_concat]
  constructor
  · intro h
    obtain ⟨element, helement, h⟩ := except_bind_eq_ok.mp h
    obtain ⟨dims, hdims, h⟩ := except_bind_eq_ok.mp h
    split at h
    · cases h
    · next hflaw =>
      cases h
      exact ⟨dims, element, ⟨front, last, rfl, Dim.ofTokens_eq_ok.mp hdims, helement⟩, flaw?_eq_none_iff.mp hflaw, rfl⟩
  · rintro ⟨dims, element, ⟨front', last', htokens, hdims, helement⟩, hlayout, rfl⟩
    obtain ⟨rfl, rfl⟩ := List.append_singleton_inj.mp htokens
    refine except_bind_eq_ok.mpr ⟨element, helement, except_bind_eq_ok.mpr ⟨dims, Dim.ofTokens_eq_ok.mpr hdims, ?_⟩⟩
    rw [flaw?_eq_none_iff.mpr hlayout]
    rfl

/-- The tokens of a layout are read, and no others; what is read is the shape of its dimensions and its element. -/
theorem ofTokens_reads_layouts (tokens : List Value) :
    ((∃ s, Shape.ofTokens tokens = .ok s) ↔ ∃ dims element, ReadAs tokens dims element ∧ IsLayout dims element) ∧
      ∀ s, Shape.ofTokens tokens = .ok s ↔
        ∃ dims element, ReadAs tokens dims element ∧ IsLayout dims element ∧ s.IsOf dims element := by
  constructor
  · constructor
    · rintro ⟨s, hs⟩
      obtain ⟨dims, element, hread, hlayout, _⟩ := ofTokens_eq_ok_iff.mp hs
      exact ⟨dims, element, hread, hlayout⟩
    · rintro ⟨dims, element, hread, hlayout⟩
      exact ⟨ofDims dims element, ofTokens_eq_ok_iff.mpr ⟨dims, element, hread, hlayout, rfl⟩⟩
  · intro s
    constructor
    · intro hs
      obtain ⟨dims, element, hread, hlayout, rfl⟩ := ofTokens_eq_ok_iff.mp hs
      have hof := isOf_dims (isAccepted_of_ofTokens hs)
      rw [dims_ofDims hlayout.vectors_first] at hof
      exact ⟨dims, element, hread, hlayout, hof⟩
    · rintro ⟨dims, element, hread, hlayout, hof⟩
      refine ofTokens_eq_ok_iff.mpr ⟨dims, element, hread, hlayout, ?_⟩
      rw [← hof.dims_eq, ← hof.element_eq, ofDims_dims]

end Shape

end TensorBridge
