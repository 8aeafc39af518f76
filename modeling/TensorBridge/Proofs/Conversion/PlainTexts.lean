import TensorBridge.Kernel.Fragment
import TensorBridge.Proofs.Conversion.Variables
import TensorBridge.Proofs.Cpp.Nesting
import TensorBridge.Proofs.Kernel.Statements

/-!
# Texts in the statements of conversions

The identifiers, types and messages in the statements for an operand are made of the operand's name, of fixed texts
and of numbers. None of the fixed texts has a bracket or a quote, so the statements are plain if the name is.
-/

namespace TensorBridge

open Conversion

/-! ## Types -/

/-- The C++ type of a depth is plain. -/
theorem Depth.isPlainText_scalar (depth : Depth) : IsPlainText depth.scalar := by cases depth <;> decide

/-- The C++ type of a channel is plain. -/
theorem Element.isPlainText_scalar (e : Element) : IsPlainText e.scalar := by
  cases e with
  | primitive type endsLine => cases type <;> cases endsLine <;> decide
  | matrix depth written container endsLine => exact depth.isPlainText_scalar

/-- The C++ type of a value is plain. -/
theorem Element.isPlainText_valueType (e : Element) : IsPlainText e.valueType := by
  unfold valueType
  split
  · simp only [isPlainText_append]
    exact ⟨⟨⟨⟨by decide, e.isPlainText_scalar⟩, by decide⟩, isPlainText_nat _⟩, by decide⟩
  · exact e.isPlainText_scalar

/-- The type constant of a matrix is plain. -/
theorem Element.isPlainText_matrixConstant (e : Element) : IsPlainText e.matrixConstant := by
  have hend (endsLine : Bool) : IsPlainText (lineEnd endsLine) := by cases endsLine <;> decide
  cases e with
  | primitive type endsLine => exact (Element.primitive type endsLine).isPlainText_scalar
  | matrix depth written container endsLine =>
    have hdepth : IsPlainText depth.matrixType := by cases depth <;> decide
    refine isPlainText_append.mpr ⟨isPlainText_append.mpr ⟨hdepth, ?_⟩, hend endsLine⟩
    cases written with
    | none => decide
    | some k => exact isPlainText_append.mpr ⟨by decide, isPlainText_nat _⟩

/-- A comma list of plain texts is plain. -/
theorem isPlainText_commaList {items : List String} (h : ∀ item ∈ items, IsPlainText item) :
    IsPlainText (commaList items) := by
  induction items with
  | nil => decide
  | cons item rest ih =>
    obtain ⟨hitem, hrest⟩ := List.forall_mem_cons.mp h
    by_cases hne : rest = []
    · subst hne
      rwa [commaList, String.intercalate_singleton]
    · rw [Shape.commaList_cons hne, isPlainText_append, isPlainText_append]
      exact ⟨⟨hitem, by decide⟩, ih hrest⟩

/-- An extent as a token is plain. -/
theorem isPlainText_extentText (extent : Extent) : IsPlainText (extentText extent) := by
  cases extent with
  | none => decide
  | some n => exact isPlainText_nat n

/-- The C++ type of a block is plain. -/
theorem Shape.isPlainText_blockType (s : Shape) : IsPlainText s.blockType := by
  have hname (container : Container) : IsPlainText container.name := by cases container <;> decide
  have hsizes : ∀ size ∈ s.block.map extentText, IsPlainText size :=
    List.forall_mem_map.mpr fun extent _ => isPlainText_extentText extent
  unfold blockType
  split
  · decide
  · simp only [isPlainText_append]
    refine ⟨⟨⟨⟨⟨hname _, by decide⟩, s.element.isPlainText_scalar⟩, by decide⟩, isPlainText_commaList ?_⟩, by decide⟩
    split
    · exact List.forall_mem_cons.mpr ⟨by decide, hsizes⟩
    · exact hsizes

/-- Layers of vectors around a plain type are plain. -/
theorem isPlainText_vectorType {core : String} (hcore : IsPlainText core) (layers : Nat) :
    IsPlainText (vectorType core layers) := by
  induction layers with
  | zero => exact hcore
  | succ layers ih => exact isPlainText_append.mpr ⟨isPlainText_append.mpr ⟨by decide, ih⟩, by decide⟩

/-- The C++ type of a value is plain. -/
theorem Shape.isPlainText_declaredType (s : Shape) : IsPlainText s.declaredType := by
  unfold declaredType
  split
  · exact isPlainText_vectorType s.isPlainText_blockType _
  · exact isPlainText_vectorType s.element.isPlainText_scalar _

/-! ## Expressions -/

/-- The endings of identifiers are plain. -/
theorem Part.isPlainText_ending (p : Part) : IsPlainText p.ending := by
  cases p with
  | index axis => exact isPlainText_append.mpr ⟨by decide, isPlainText_nat axis⟩
  | size axis => exact isPlainText_append.mpr ⟨by decide, isPlainText_nat axis⟩
  | _ => decide

/-- The identifiers of an operand with a plain name are plain. -/
theorem Names.isPlainText_part (n : Names) (hn : IsPlainText n.base) (p : Part) : IsPlainText (n.part p) :=
  isPlainText_append.mpr ⟨hn, p.isPlainText_ending⟩

/-- A call of a function is plain if the function's name and the arguments are. -/
theorem Expr.isPlain_callNamed {function : String} {args : List Expr} (hfunction : IsPlainText function)
    (hargs : ∀ e ∈ args, e.IsPlain) : (Expr.callNamed function args).IsPlain :=
  every_call.mpr ⟨trivial, every_name.mpr hfunction, hargs⟩

/-- A call of a method is plain if the method's name, the object and the arguments are. -/
theorem Expr.isPlain_method {base : Expr} {arrow : Bool} {called : String} {args : List Expr}
    (hcalled : IsPlainText called) (hbase : base.IsPlain) (hargs : ∀ e ∈ args, e.IsPlain) :
    (Expr.method base arrow called args).IsPlain :=
  every_method.mpr ⟨hcalled, hbase, hargs⟩

/-- The name of the kernel's context is plain. -/
theorem Expr.isPlain_context : (Expr.name "context").IsPlain := every_name.mpr (by decide : IsPlainText "context")

/-- Numbers are plain. -/
theorem Expr.isPlain_count (n : Nat) : (Expr.count n).IsPlain := every_int.mpr trivial

/-- A chain of plain subscripts is plain. -/
theorem Expr.isPlain_subscripts {base : Expr} {index : List Expr} (hbase : base.IsPlain)
    (hindex : ∀ e ∈ index, e.IsPlain) : (base.subscripts index).IsPlain :=
  every_subscripts (fun _ _ => trivial) hbase hindex

/-- Indices of zero are plain. -/
theorem isPlain_zeroIndices (count : Nat) : ∀ e ∈ zeroIndices count, e.IsPlain :=
  Expr.every_replicate_count trivial

/-- A report without quotes is plain if its details are. -/
theorem isPlain_invalidArgument {message : String} {details : List Expr} (hmessage : IsPlainText message)
    (hdetails : ∀ e ∈ details, e.IsPlain) : (invalidArgument message details).IsPlain :=
  Expr.isPlain_callNamed (by decide) (List.forall_mem_cons.mpr ⟨Expr.every_string.mpr hmessage.not_mem, hdetails⟩)

/-- A requirement is plain if its condition and its report are. -/
theorem isPlain_requireThat {condition report : Expr} (hcondition : condition.IsPlain) (hreport : report.IsPlain) :
    (requireThat condition report).IsPlain := by
  refine Expr.isPlain_callNamed (by decide) ?_
  simp only [List.forall_mem_cons, Expr.isPlain_context, hcondition, hreport, true_and]
  exact List.forall_mem_nil _

section Plain

variable {n : Names} (hn : IsPlainText n.base) (s : Shape)

include hn

/-- The identifiers of an operand as expressions. -/
theorem Names.isPlain_name (p : Part) : (Expr.name (n.part p)).IsPlain := Expr.every_name.mpr (n.isPlainText_part hn p)

/-- The loop variables of some axes are plain. -/
theorem Names.isPlain_indices (first count : Nat) : ∀ e ∈ n.indices first count, e.IsPlain := by
  refine List.forall_mem_map.mpr fun axis _ => ?_
  rw [index_eq_part]
  exact n.isPlain_name hn (.index axis)

/-- The size of an axis is plain. -/
theorem Names.isPlain_sizeOf (axis : Nat) : (n.sizeOf axis).IsPlain := by
  rw [sizeOf, size_eq_part]
  exact n.isPlain_name hn (.size axis)

/-- The sizes of some axes are plain. -/
theorem Names.isPlain_sizes (first count : Nat) : ∀ e ∈ n.sizes first count, e.IsPlain :=
  List.forall_mem_map.mpr fun axis _ => n.isPlain_sizeOf hn axis

/-- The declaration of a size is plain if the extent is. -/
theorem Names.isPlain_declareSize {axis : Nat} {extent : Expr} (hextent : extent.IsPlain) :
    (n.declareSize axis extent).IsPlain := by
  have hcast : (Expr.callNamed "static_cast<int32>" [extent]).IsPlain :=
    Expr.isPlain_callNamed (by decide) (List.forall_mem_singleton.mpr hextent)
  refine Stmt.isPlain_initialized (by decide) ?_ hcast
  rw [size_eq_part]
  exact n.isPlainText_part hn (.size axis)

/-- A plain loop over an axis. -/
theorem Names.isPlain_loopOver (axis : Nat) {before : List Stmt} (hbefore : Stmt.ArePlain before) :
    IsPlainText (n.loopOver axis before).var ∧ (n.loopOver axis before).bound.IsPlain ∧
      Stmt.ArePlain (n.loopOver axis before).before ∧ Stmt.ArePlain (n.loopOver axis before).after := by
  refine ⟨?_, n.isPlain_sizeOf hn axis, hbefore, trivial⟩
  rw [loopOver, index_eq_part]
  exact n.isPlainText_part hn (.index axis)

/-- Plain loops around plain statements. -/
theorem Names.arePlain_plainLoops (first count : Nat) {inner : List Stmt} (hinner : Stmt.ArePlain inner) :
    Stmt.ArePlain (nested (n.plainLoops first count) inner) := by
  refine Stmt.arePlain_nested (List.forall_mem_map.mpr fun axis _ => ?_) hinner
  exact n.isPlain_loopOver hn axis trivial

/-- The indices of a primitive value are plain. -/
theorem isPlain_primitiveIndex : ∀ e ∈ primitiveIndex n s, e.IsPlain := by
  unfold primitiveIndex
  split
  · exact List.forall_mem_singleton.mpr (Expr.isPlain_count 0)
  · exact n.isPlain_indices hn 0 s.vectorRank

/-- Both sides of the copy of an element are plain. -/
theorem isPlain_elementPairs {block : Expr} {data : String} (hblock : block.IsPlain) (hdata : IsPlainText data) :
    ∀ pair ∈ elementPairs n s block data, pair.1.IsPlain ∧ pair.2.IsPlain := by
  have helement : (Expr.element block s.element.container (n.indices s.vectorRank s.blockRank)
      s.element.valueType).IsPlain :=
    Expr.every_element.mpr ⟨s.element.isPlainText_valueType, hblock, n.isPlain_indices hn _ _⟩
  unfold elementPairs
  dsimp only
  split
  · exact List.forall_mem_singleton.mpr ⟨helement, Expr.isPlain_callNamed hdata (n.isPlain_indices hn _ _)⟩
  · refine List.forall_mem_map.mpr fun channel _ => ?_
    refine ⟨Expr.every_subscript.mpr ⟨trivial, helement, Expr.isPlain_count channel⟩, Expr.isPlain_callNamed hdata ?_⟩
    rw [List.forall_mem_append, List.forall_mem_singleton]
    exact ⟨n.isPlain_indices hn _ _, Expr.isPlain_count channel⟩

/-! ## From the tensor to the value -/

/-- The declarations of the sizes of a tensor, and the requirements on them, are plain. -/
theorem arePlain_tensorSizes : Stmt.ArePlain (tensorSizes n s) := by
  have hrequire {axis count : Nat} {message : String} (hmessage : IsPlainText message) :
      (requireThat (.binary "==" (n.sizeOf axis) (.count count)) (invalidArgument message [])).IsPlain := by
    refine isPlain_requireThat ?_ (isPlain_invalidArgument hmessage (List.forall_mem_nil _))
    exact Expr.every_binary.mpr ⟨(by decide : IsPlainText "=="), n.isPlain_sizeOf hn axis, Expr.isPlain_count count⟩
  unfold tensorSizes
  simp only [Stmt.arePlain_append]
  refine ⟨⟨?declared, ?fixed⟩, ?channels⟩
  case declared =>
    refine Stmt.arePlain_iff.mpr (List.forall_mem_map.mpr fun axis _ => n.isPlain_declareSize hn ?_)
    exact Expr.isPlain_method (by decide) (n.isPlain_name hn .tensorIn)
      (List.forall_mem_singleton.mpr (Expr.isPlain_count axis))
  case fixed =>
    split
    · refine Stmt.arePlain_iff.mpr (List.forall_mem_map.mpr fun layer _ => hrequire ?_)
      simp only [isPlainText_append]
      exact ⟨⟨⟨⟨hn, by decide⟩, isPlainText_extentText _⟩, by decide⟩, isPlainText_nat _⟩
    · trivial
  case channels =>
    split
    · refine ⟨hrequire ?_, trivial⟩
      simp only [isPlainText_append]
      exact ⟨⟨⟨⟨hn, by decide⟩, isPlainText_nat _⟩, by decide⟩, isPlainText_nat _⟩
    · trivial

/-- A vector layer is plain. -/
theorem isPlain_layer {index : List Expr} (hindex : ∀ e ∈ index, e.IsPlain) :
    ((Expr.name n.value).subscripts index).IsPlain :=
  Expr.isPlain_subscripts (n.isPlain_name hn .value) hindex

/-- The call of a method of a vector layer is plain. -/
theorem isPlain_callOn {count : Nat} {method : String} {args : List Expr} (hmethod : IsPlainText method)
    (hargs : ∀ e ∈ args, e.IsPlain) :
    (callOn ((Expr.name n.value).subscripts (n.indices 0 count)) method args).IsPlain :=
  Expr.isPlain_method hmethod (isPlain_layer hn (n.isPlain_indices hn _ _)) hargs

/-- What a loop over a vector layer does first is plain. -/
theorem arePlain_layerStart (axis : Nat) (extent : Extent) : Stmt.ArePlain (layerStart n s axis extent) := by
  have hprobe : (Expr.callNamed n.dataIn (n.indices 0 (axis + 1) ++ zeroIndices (s.tensorRank - axis - 1))).IsPlain :=
    Expr.isPlain_callNamed (n.isPlainText_part hn .dataIn)
      (List.forall_mem_append.mpr ⟨n.isPlain_indices hn _ _, isPlain_zeroIndices _⟩)
  have hstop : (stopAtNaN n s axis).IsPlain :=
    ⟨Expr.isPlain_callNamed (by decide) (List.forall_mem_singleton.mpr hprobe), ⟨trivial, trivial⟩, trivial⟩
  exact Stmt.arePlain_iff.mpr
    (forall_mem_layerStart extent hstop (isPlain_callOn hn (by decide) (List.forall_mem_nil _)))

/-- The declaration of the extents of a block is plain if the name for them is. -/
theorem arePlain_declareExtents {name : String} (hname : IsPlainText name) :
    Stmt.ArePlain (declareExtents n s name) := by
  unfold declareExtents
  split
  · trivial
  · have hsizes : (Expr.initializer (n.sizes s.vectorRank s.blockRank)).IsPlain :=
      Expr.every_initializer.mpr ⟨trivial, n.isPlain_sizes hn _ _⟩
    exact ⟨Stmt.isPlain_initialized (by decide) hname hsizes, trivial⟩

omit hn in
/-- The allocation of a block is plain if the names of the block and of its extents are. -/
theorem isPlain_declareBlock {name extents : String} (hname : IsPlainText name) (hextents : IsPlainText extents) :
    (declareBlock s name extents).IsPlain := by
  unfold declareBlock
  split
  · exact Stmt.isPlain_constructed s.isPlainText_blockType hname (List.forall_mem_nil _)
  · refine Stmt.isPlain_constructed (by decide) hname ?_
    simp only [List.forall_mem_cons, Expr.isPlain_count, Expr.every_name, Expr.AddsPlainText, hextents,
      s.element.isPlainText_matrixConstant, true_and]
    exact List.forall_mem_nil _

/-- The declaration of the outermost vector is plain. -/
theorem isPlain_declareVectors : (declareVectors n s).IsPlain := by
  have hvalue := n.isPlainText_part hn .value
  unfold declareVectors
  split
  · exact Stmt.isPlain_constructed s.isPlainText_declaredType hvalue
      (List.forall_mem_singleton.mpr (n.isPlain_sizeOf hn 0))
  · exact Stmt.isPlain_constructed s.isPlainText_declaredType hvalue (List.forall_mem_nil _)

/-- The copy of the tensor's part of a block is plain. -/
theorem arePlain_fillBlock {block : String} (hblock : IsPlainText block) : Stmt.ArePlain (fillBlock n s block) := by
  refine n.arePlain_plainLoops hn _ _ (Stmt.arePlain_iff.mpr (List.forall_mem_map.mpr ?_))
  exact isPlain_elementPairs hn s (Expr.every_name.mpr hblock) (n.isPlainText_part hn .dataIn)

/-- The loops over the vector layers around plain statements. -/
theorem arePlain_layerLoops {inner : List Stmt} (hinner : Stmt.ArePlain inner) :
    Stmt.ArePlain (nested (layerLoops n s) inner) := by
  refine Stmt.arePlain_nested (forall_mem_layerLoops fun axis extent => ?_) hinner
  exact n.isPlain_loopOver hn axis (arePlain_layerStart hn s axis extent)

/-- The body of the conversion to a value is plain. -/
theorem arePlain_valueBody : Stmt.ArePlain (valueBody n s) := by
  have hpart := n.isPlainText_part hn
  have happend {item : Expr} (hitem : item.IsPlain) : (append n s item).IsPlain :=
    isPlain_callOn hn (by decide) (List.forall_mem_singleton.mpr hitem)
  have hprimitive : (Expr.callNamed n.dataIn (primitiveIndex n s)).IsPlain :=
    Expr.isPlain_callNamed (hpart .dataIn) (isPlain_primitiveIndex hn s)
  unfold valueBody
  cases s.kind with
  | scalar => exact ⟨Stmt.isPlain_initialized s.isPlainText_declaredType (hpart .value) hprimitive, trivial⟩
  | vectorOfPrimitive =>
    exact ⟨isPlain_declareVectors hn s, arePlain_layerLoops hn s ⟨happend hprimitive, trivial⟩⟩
  | vectorOfMatrix =>
    have hfill := arePlain_fillBlock hn s (hpart .block)
    have hinner : Stmt.ArePlain
        (declareBlock s n.block n.blockShape :: fillBlock n s n.block ++ [append n s (.name n.block)]) :=
      Stmt.arePlain_append.mpr ⟨⟨isPlain_declareBlock s (hpart .block) (hpart .blockShape), hfill⟩,
        happend (n.isPlain_name hn .block), trivial⟩
    exact Stmt.arePlain_append.mpr ⟨⟨isPlain_declareVectors hn s, arePlain_declareExtents hn s (hpart .blockShape)⟩,
      arePlain_layerLoops hn s hinner⟩
  | matrix =>
    exact Stmt.arePlain_append.mpr ⟨arePlain_declareExtents hn s (hpart .shape),
      isPlain_declareBlock s (hpart .value) (hpart .shape), arePlain_fillBlock hn s (hpart .value)⟩

/-! ## From the value to the tensor -/

/-- The declarations of the sizes of a value are plain. -/
theorem arePlain_valueSizes : Stmt.ArePlain (layerSizes n s ++ blockSizes n s (firstBlock n s)) := by
  rw [Stmt.arePlain_append, Stmt.arePlain_iff, Stmt.arePlain_iff]
  constructor
  · refine List.forall_mem_map.mpr fun axis _ => n.isPlain_declareSize hn ?_
    exact Expr.isPlain_method (by decide) (isPlain_layer hn (isPlain_zeroIndices axis)) (List.forall_mem_nil _)
  · refine List.forall_mem_map.mpr fun layer _ => n.isPlain_declareSize hn ?_
    split
    · exact Expr.isPlain_count _
    · have hsize : (Expr.member (firstBlock n s) "size").IsPlain :=
        Expr.every_member.mpr ⟨(by decide : IsPlainText "size"), isPlain_layer hn (isPlain_zeroIndices _)⟩
      exact Expr.every_subscript.mpr ⟨trivial, hsize, Expr.isPlain_count _⟩

/-- The copy of a value is plain. -/
theorem arePlain_tensorBody : Stmt.ArePlain (nested (n.plainLoops 0 s.rank) (copyInnermost n s)) := by
  have hblock : (currentBlock n s).IsPlain := isPlain_layer hn (n.isPlain_indices hn _ _)
  have hdata := n.isPlainText_part hn .dataOut
  refine n.arePlain_plainLoops hn _ _ ?_
  unfold copyInnermost
  split
  · refine Stmt.arePlain_iff.mpr (List.forall_mem_map.mpr fun pair hpair => ?_)
    exact (isPlain_elementPairs hn s hblock hdata pair hpair).symm
  · exact ⟨⟨Expr.isPlain_callNamed hdata (isPlain_primitiveIndex hn s), hblock⟩, trivial⟩

/-- The extents that a tensor is allocated with are plain. -/
theorem isPlain_allocatedExtents : ∀ e ∈ allocatedExtents n s, e.IsPlain := by
  rw [allocatedExtents, List.forall_mem_append]
  exact ⟨n.isPlain_sizes hn _ _, Expr.every_replicate_count trivial⟩

omit hn in
/-- The extents of the tensor of an empty value are plain. -/
theorem isPlain_emptyAllocation : ∀ e ∈ emptyAllocation s, e.IsPlain := by
  rw [emptyAllocation, List.forall_mem_append, List.forall_mem_cons, List.forall_mem_map]
  exact ⟨⟨Expr.isPlain_count 0, fun _ _ => Expr.isPlain_count _⟩, Expr.every_replicate_count trivial⟩

/-! ## Around a conversion -/

omit hn in
/-- The values of a tensor are plain. -/
theorem isPlain_tensorValues {tensor : String} (htensor : IsPlainText tensor) {arrow : Bool} {values : Expr}
    (h : tensorValues tensor arrow s = .ok values) : values.IsPlain := by
  obtain ⟨scalar, hscalar, rfl⟩ := except_map_eq_ok.mp h
  obtain ⟨depth, _, rfl⟩ := except_map_eq_ok.mp hscalar
  refine Expr.isPlain_method ?_ (Expr.every_name.mpr htensor) (List.forall_mem_nil _)
  split
  · exact isPlainText_append.mpr ⟨isPlainText_append.mpr ⟨by decide, depth.isPlainText_scalar⟩, by decide⟩
  · simp only [isPlainText_append]
    exact ⟨⟨⟨⟨by decide, depth.isPlainText_scalar⟩, by decide⟩, isPlainText_nat _⟩, by decide⟩

/-- The check of the rank of an input is plain. -/
theorem isPlain_requireRank : (requireRank n s).IsPlain := by
  have htensor := n.isPlain_name hn .tensorIn
  refine isPlain_requireThat (Expr.every_binary.mpr ⟨(by decide : IsPlainText "=="), ?_, Expr.isPlain_count _⟩)
    (isPlain_invalidArgument ?_ (List.forall_mem_singleton.mpr ?_))
  · exact Expr.isPlain_method (by decide) htensor (List.forall_mem_nil _)
  · simp only [isPlainText_append]
    exact ⟨⟨⟨hn, by decide⟩, isPlainText_nat _⟩, by decide⟩
  · exact Expr.isPlain_method (by decide) (Expr.isPlain_method (by decide) htensor (List.forall_mem_nil _))
      (List.forall_mem_nil _)

/-- The allocation of an output is plain if its extents are. -/
theorem isPlain_allocateTensor (index : Int) {extents : List Expr} (hextents : ∀ e ∈ extents, e.IsPlain) :
    (allocateTensor index n.tensorOut extents).IsPlain := by
  have hshape : (Expr.callNamed "TensorShape" [.initializer extents]).IsPlain :=
    Expr.isPlain_callNamed (by decide) (List.forall_mem_singleton.mpr (Expr.every_initializer.mpr ⟨trivial, hextents⟩))
  have htensor : (Expr.address (.name n.tensorOut)).IsPlain :=
    Expr.every_address.mpr ⟨trivial, n.isPlain_name hn .tensorOut⟩
  refine Expr.isPlain_callNamed (by decide)
    (List.forall_mem_cons.mpr ⟨Expr.isPlain_context, List.forall_mem_singleton.mpr ?_⟩)
  refine Expr.isPlain_method (by decide) Expr.isPlain_context ?_
  simp only [List.forall_mem_cons, hshape, htensor, true_and]
  exact ⟨Expr.every_int.mpr trivial, List.forall_mem_nil _⟩

/-- The statements that fill an output are plain. -/
theorem arePlain_fillStatements (index : Int) {values : Expr} (hvalues : values.IsPlain) :
    Stmt.ArePlain (fillStatements n s index values) := by
  have hallocate := isPlain_allocateTensor hn index (isPlain_allocatedExtents hn s)
  have hdefine : (Stmt.define "auto" n.dataOut values).IsPlain :=
    Stmt.isPlain_initialized (by decide) (n.isPlainText_part hn .dataOut) hvalues
  exact Stmt.arePlain_append.mpr ⟨Stmt.arePlain_append.mpr ⟨arePlain_valueSizes hn s, hallocate, hdefine, trivial⟩,
    arePlain_tensorBody hn s⟩

end Plain

section Statements

variable {name : String} {index : Int} {s : Shape} {stmts : List Stmt}

/-- The statements for an input with a plain name are plain. -/
theorem arePlain_inputStatements (hname : IsPlainText name) (h : (inputStatements name index s).outcome = .ok stmts) :
    Stmt.ArePlain stmts := by
  obtain ⟨values, hvalues, rfl⟩ := inputStatements_eq h
  have hpart := Names.isPlainText_part ⟨name⟩ hname
  have hfetch : (fetchTensor ⟨name⟩ index).IsPlain := by
    refine Stmt.isPlain_initialized (by decide) (hpart .tensorIn)
      (Expr.isPlain_method (by decide) Expr.isPlain_context ?_)
    exact List.forall_mem_singleton.mpr (Expr.every_int.mpr trivial)
  have hdefine : (Stmt.define "auto" (Names.dataIn ⟨name⟩) values).IsPlain :=
    Stmt.isPlain_initialized (by decide) (hpart .dataIn) (isPlain_tensorValues s (hpart .tensorIn) hvalues)
  refine ⟨hfetch, Stmt.arePlain_append.mpr ⟨Stmt.arePlain_append.mpr ⟨?_, arePlain_tensorSizes hname s⟩,
    arePlain_valueBody hname s⟩⟩
  exact ⟨isPlain_requireRank hname s, hdefine, trivial⟩

/-- The statements for an output with a plain name are plain. -/
theorem arePlain_outputStatements (hname : IsPlainText name)
    (h : (outputStatements name index s).outcome = .ok stmts) : Stmt.ArePlain stmts := by
  obtain ⟨values, hvalues, rfl⟩ := outputStatements_eq h
  have hpart := Names.isPlainText_part ⟨name⟩ hname
  have hnull : (Stmt.define "Tensor*" (Names.tensorOut ⟨name⟩) (.name "nullptr")).IsPlain :=
    Stmt.isPlain_initialized (by decide) (hpart .tensorOut) (Expr.every_name.mpr (by decide : IsPlainText "nullptr"))
  have hfill := arePlain_fillStatements hname s index (isPlain_tensorValues s (hpart .tensorOut) hvalues)
  refine ⟨hnull, ?_, trivial⟩
  unfold copyStatement
  split
  · exact hfill
  · have htest : (Expr.method (.name (Names.value ⟨name⟩)) false "empty" []).IsPlain :=
      Expr.isPlain_method (by decide) (Expr.every_name.mpr (hpart .value)) (List.forall_mem_nil _)
    exact ⟨htest, ⟨isPlain_allocateTensor hname index (isPlain_emptyAllocation s), trivial⟩, hfill⟩

/-- The statements around the call of the user's function are plain if its name and those of its operands are. -/
theorem arePlain_callStatements {function : String} {outputs : List (String × Shape)} {arguments : List (Int × String)}
    (hfunction : IsPlainText function) (houtputs : ∀ output ∈ outputs, IsPlainText output.1)
    (harguments : ∀ argument ∈ arguments, IsPlainText argument.2) :
    Stmt.ArePlain (callStatements function outputs arguments) := by
  refine Stmt.arePlain_append.mpr ⟨Stmt.arePlain_iff.mpr (List.forall_mem_map.mpr fun output houtput => ?_), ?_,
    trivial⟩
  · exact Stmt.isPlain_constructed output.2.isPlainText_declaredType
      (Names.isPlainText_part ⟨output.1⟩ (houtputs output houtput) .value)
      (List.forall_mem_nil _)
  · refine Expr.isPlain_callNamed hfunction (List.forall_mem_map.mpr fun argument hargument => ?_)
    exact Expr.every_name.mpr (harguments argument ((sortBy_perm Prod.fst arguments).mem_iff.mp hargument))

end Statements

end TensorBridge
