import TensorBridge.Proofs.Kernel.Ranks
import TensorBridge.Proofs.Shape.Layout

/-!
# Blocks in fixed containers

The type of a `Vec` has one size and that of a `Matx` has two. A shape whose block lies in one of them has to know
the extents of the block, and they are the sizes in its type; for a `Matx` of one axis there is a one in front. A
`Vec` around several axes is refused, but a `Matx` around three and more is not, and then its type has too many
sizes. The accesses to the block have one index for each axis in any case.
-/

namespace TensorBridge

open Conversion

/-! ## The declaration of a block -/

/-- A declaration of a block that its container has a type for: a `Vec` with the only extent of the block, or a `Matx`
with two sizes, which are one and the only extent, or both extents in their order. -/
def IsFixedDeclaration (container : Container) (scalar : String) (extents : List Nat) (text : String) : Prop :=
  match container with
  | .mat => False
  | .vec => ∃ n, extents = [n] ∧ text = "Vec<" ++ scalar ++ ", " ++ toString n ++ ">"
  | .matx => ∃ rows columns, (extents = [columns] ∧ rows = 1 ∨ extents = [rows, columns]) ∧
      text = "Matx<" ++ scalar ++ ", " ++ toString rows ++ ", " ++ toString columns ++ ">"

/-- An element in a fixed container is one of a matrix, and its scalar is that of a depth. -/
theorem Element.isMatrix_of_isFixed {e : Element} (h : e.container.isFixed = true) :
    e.isMatrix = true ∧ ∃ depth, e.depth? = some depth ∧ e.scalar = depth.scalar := by
  cases e with
  | primitive type endsLine => cases h
  | matrix depth written container endsLine => exact ⟨rfl, depth, rfl, rfl⟩

/-- Known extents are numbers. -/
theorem map_some_fixedExtents {extents : List Extent} (h : ∀ e ∈ extents, e.isSome = true) :
    extents = (extents.map (·.getD 0)).map some := by
  rw [List.map_map]
  refine ((List.map_congr_left (g := id) fun e he => ?_).trans (List.map_id _)).symm
  obtain ⟨n, rfl⟩ := Option.isSome_iff_exists.mp (h e he)
  rfl

/-- The text of a block's type is a declaration of a `Vec` or a `Matx` exactly if it has one size or two. -/
theorem isFixedDeclaration_blockText_iff {element : Element} {extents : List Nat}
    (hfixed : element.container.isFixed = true) (hblock : extents ≠ [])
    (hvec : element.container = .vec → extents.length = 1) :
    IsFixedDeclaration element.container element.scalar extents (blockText element extents) ↔
      (element.container = .matx → extents.length ≤ 2) := by
  unfold blockText
  cases hcontainer : element.container with
  | mat =>
    rw [hcontainer] at hfixed
    cases hfixed
  | vec =>
    obtain ⟨n, rfl⟩ := List.length_eq_one_iff.mp (hvec hcontainer)
    exact iff_of_true ⟨n, rfl, rfl⟩ fun h => nomatch h
  | matx =>
    match extents, hblock with
    | [n], _ =>
      refine iff_of_true ⟨1, n, .inl ⟨rfl, rfl⟩, ?_⟩ fun _ => by simp
      simp [commaList, String.append_assoc]
    | [rows, columns], _ =>
      refine iff_of_true ⟨rows, columns, .inr rfl, ?_⟩ fun _ => Nat.le_refl 2
      simp [commaList, String.append_assoc]
    | a :: b :: c :: rest, _ =>
      refine iff_of_false ?_ fun h => absurd (h rfl) (by simp)
      rintro ⟨_, _, ⟨h, _⟩ | h, _⟩ <;> cases h

/-! ## Accesses to a block -/

/-- The statements of a conversion: the declarations of the sizes, then the copy. -/
def Conversion.statements (c : Conversion) : List Stmt := c.sizes ++ c.body

/-- All accesses to elements of a block in some statements have an index for each axis of the block. -/
def AccessesBlockByAxes (s : Shape) (stmts : List Stmt) : Prop :=
  ∀ part ∈ partsOf stmts, ∀ base container index valueType,
    part.2 = .element base container index valueType → index.length = s.blockRank

/-- An expression that is no access to an element of a block, or one with an index for each axis. -/
def Expr.IndexesBlock (s : Shape) : Expr → Prop
  | .element _ _ index _ => index.length = s.blockRank
  | _ => True

/-- What a conversion evaluates has an index for each axis of the block. -/
theorem Site.IsSound.indexesBlock {n : Names} {s : Shape} {methods : List String} {site : Site}
    (h : site.IsSound n s methods) : site.expr.Every (Expr.IndexesBlock s) := by
  refine h.every (fun e he => ?_) (fun _ => trivial) (fun _ => trivial) fun _ _ => trivial
  cases e with
  | element base container index valueType =>
    obtain ⟨_, rfl⟩ : n.IsBlockIndex s site.around index := he
    exact n.length_indices _ _
  | _ => trivial

/-- Everything that a conversion evaluates has an index for each axis of the block. -/
theorem everyPart_indexesBlock (name : String) (s : Shape) (direction : Direction) :
    EveryPart (Expr.IndexesBlock s) (Conversion.of name s direction).statements := by
  rw [Conversion.statements, everyPart_append]
  cases direction with
  | toValue =>
    have htensor : Names.tensorIn ⟨name⟩ ∈ ([Binding.declared (Names.tensorIn ⟨name⟩)]).map Binding.name :=
      List.mem_singleton_self _
    obtain ⟨_, hbody⟩ := exists_allSound_valueBody ⟨name⟩ s
    exact ⟨(everySite_tensorSizes htensor).everyPart fun _ => Site.IsSound.indexesBlock,
      hbody.everyPart fun _ => Site.IsSound.indexesBlock⟩
  | toTensor =>
    obtain ⟨_, hsizes, _, hbody⟩ := exists_allSound_toTensor ⟨name⟩ s
    exact ⟨hsizes.everyPart fun _ => Site.IsSound.indexesBlock, hbody.everyPart fun _ => Site.IsSound.indexesBlock⟩

/-- The accesses in either conversion have an index for each axis of the block. -/
theorem accessesBlockByAxes_conversion (name : String) (s : Shape) (direction : Direction) :
    AccessesBlockByAxes s (Conversion.of name s direction).statements := by
  rintro ⟨target, e⟩ hpart base container index valueType rfl
  exact (everyPart_indexesBlock name s direction).of_mem hpart

/-! ## Accepted shapes with a fixed container -/

/-- A block in a fixed container has known extents, its type has them as sizes behind the scalar of its depth, and
both conversions access it with one index for each axis. Its type is one that the container has exactly if the block of
a `Matx` has at most two axes. -/
theorem fixedBlock_isDeclared_iff (tokens : List Value) (s : Shape) (h : Shape.ofTokens tokens = .ok s)
    (hfixed : s.element.container.isFixed = true) :
    ∃ depth extents, s.element.depth? = some depth ∧ s.block = extents.map some ∧
      s.blockType? = some (s.element.container.name ++ "<" ++ depth.scalar ++ ", " ++
        commaList ((if s.element.container = .matx ∧ extents.length = 1 then 1 :: extents else extents).map toString) ++
        ">") ∧
      ((∃ text, s.blockType? = some text ∧ IsFixedDeclaration s.element.container depth.scalar extents text) ↔
        (s.element.container = .matx → s.blockRank ≤ 2)) ∧
      ∀ name direction, AccessesBlockByAxes s (Conversion.of name s direction).statements := by
  have hs := Shape.isAccepted_of_ofTokens h
  obtain ⟨hmatrix, depth, hdepth, hscalar⟩ := Element.isMatrix_of_isFixed hfixed
  have hrank : s.fixedExtents.length = s.blockRank := List.length_map _
  have hblock : s.fixedExtents ≠ [] := by
    intro hnil
    rw [hs.block_eq_nil_iff.mp (List.map_eq_nil_iff.mp hnil)] at hmatrix
    cases hmatrix
  have htype : s.blockType? = some (blockText s.element s.fixedExtents) := by
    rw [Shape.blockType?, Shape.hasBlock_eq, if_pos hmatrix, Shape.blockType_eq_blockText hs]
  have hdeclared := isFixedDeclaration_blockText_iff hfixed hblock fun hvec => hrank.trans (hs.vec_length hvec)
  refine ⟨depth, s.fixedExtents, hdepth, map_some_fixedExtents (hs.fixed_known hfixed), ?_, ?_,
    fun name direction => accessesBlockByAxes_conversion name s direction⟩
  · rw [htype, ← hscalar]
    unfold blockText
    cases hcontainer : s.element.container with
    | mat =>
      rw [hcontainer] at hfixed
      cases hfixed
    | matx => simp [Container.name]
    | vec => simp [Container.name]
  · rw [hrank, hscalar] at hdeclared
    rw [← hdeclared, htype]
    simp

/-- Vectors of matrices of three by three. -/
def matrixRow : Shape := ⟨[none], [some 3, some 3], .matrix .f64 none .matx false⟩

/-- A `Matx` of three by three has a declaration. -/
theorem fixedBlock_isDeclared_matrixRow :
    Shape.ofTokens [.string "vector:none", .string "3", .int 3, .string "CV_64F:Matx"] = .ok matrixRow ∧
      ∃ depth extents text, matrixRow.block = extents.map some ∧ matrixRow.blockType? = some text ∧
        IsFixedDeclaration .matx (Depth.scalar depth) extents text := by
  have h : Shape.ofTokens [.string "vector:none", .string "3", .int 3, .string "CV_64F:Matx"] = .ok matrixRow := rfl
  obtain ⟨depth, extents, _, hextents, _, hdeclared, _⟩ := fixedBlock_isDeclared_iff _ _ h rfl
  obtain ⟨text, htext, hfixed⟩ := hdeclared.mpr fun _ => by decide
  exact ⟨h, depth, extents, text, hextents, htext, hfixed⟩

/-- A `Matx` around three axes is accepted, and its type is no declaration of a `Matx` of any two sizes. -/
theorem matx_of_three_axes_accepted :
    ∃ s, Shape.ofTokens [.string "2", .string "3", .string "4", .string "CV_32F:Matx"] = .ok s ∧
      s.blockType? = some "Matx<float, 2, 3, 4>" ∧
      ¬ ∃ extents, IsFixedDeclaration .matx "float" extents "Matx<float, 2, 3, 4>" := by
  refine ⟨⟨[], [some 2, some 3, some 4], .matrix .f32 none .matx false⟩, rfl, by decide, ?_⟩
  rintro ⟨_, rows, columns, _, htext⟩
  have hmatx : Container.matx.isFixed = true := rfl
  have hthree := ofText_fixed hmatx (Element.isArgument_scalar .f32) [2, 3, 4]
  have htwo := ofText_fixed hmatx (Element.isArgument_scalar .f32) [rows, columns]
  have hwritten : Container.matx.name ++ "<" ++ commaList (Depth.f32.scalar :: [rows, columns].map toString) ++ ">" =
      "Matx<float, 2, 3, 4>" := by
    rw [htext, ← String.toList_inj]
    simp [Container.name, Depth.scalar, commaList]
  rw [hwritten] at htwo
  cases hthree.symm.trans htwo

end TensorBridge
