import TensorBridge.Conversion.Build
import TensorBridge.Proofs.Conversion.Layers
import TensorBridge.Proofs.Conversion.Sizes
import TensorBridge.Proofs.Cpp.Exits
import TensorBridge.Proofs.Text.Numerals
import TensorBridge.Proofs.Text.Parted

/-!
# Rows of unknown length

A row of unknown length inside other vectors has its end marked in the tensor, or it is reported. The loop over a row
of floating-point numbers may end at a NaN; it looks for one before anything else, and no other loop of a conversion
may end early. A row of other values is copied in full, which leaves a warning, and there are no other warnings.
-/

namespace TensorBridge

open Conversion

/-- The rows of unknown length: the vector layers inside others whose extent is not known, the outer ones first. -/
def Shape.openRows (s : Shape) : List Nat :=
  (List.range s.vectorRank).filter fun axis => decide (0 < axis) && s.vectors[axis]? == some none

/-- The end of a row that is marked: the first thing that the loop over the row does is to look at the tensor at the
loop variables up to that of the row and at zeros for the axes below, and to stop if there is a NaN. -/
def Conversion.rowExit (n : Names) (s : Shape) (axis : Nat) : Exit where
  loops := (List.range (axis + 1)).map fun a : Nat => n.index a
  before := []
  tests := [(.callNamed "std::isnan"
    [.callNamed n.dataIn (n.indices 0 (axis + 1) ++ zeroIndices (s.tensorRank - axis - 1))], true)]

/-- The ends of the rows of unknown length, for values that have a mark for it. -/
def Conversion.rowEnds (n : Names) (s : Shape) : List Exit :=
  if s.element.isFloating then s.openRows.map (rowExit n s) else []

/-- The reports of the rows of unknown length, for values that have no mark for their end. -/
def Conversion.rowReports (name : String) (s : Shape) : List Record :=
  if s.element.isFloating then [] else s.openRows.map (unmarkedRowRecord name s)

/-- The warnings among some records. -/
def warningsIn (records : List Record) : List Record := records.filter (·.level == .warning)

/-- The layers that pass the test for rows of unknown length are these rows. -/
theorem Shape.map_snd_filter_isOpenRow (s : Shape) :
    (s.vectors.zipIdx.filter fun (extent, axis) => isOpenRow axis extent).map Prod.snd = s.openRows := by
  have hlayers : (s.vectors.zipIdx.filter fun (extent, axis) => isOpenRow axis extent) =
      s.vectors.zipIdx.filter ((fun axis => decide (0 < axis) && s.vectors[axis]? == some none) ∘ Prod.snd) := by
    refine List.filter_congr fun (extent, axis) hlayer => ?_
    rw [Function.comp_apply, List.mem_zipIdx_iff_getElem?.mp hlayer]
    cases extent <;> rfl
  rw [hlayers, ← List.filter_map, List.zipIdx_map_snd, ← List.range_eq_range']
  rfl

/-! ## Early ends of loops -/

section Exits

variable {n : Names} {s : Shape}

/-- The test for the end of a row is the only way out of the loop over the row. -/
theorem exits_rowEnd (axis : Nat) (extent : Extent) :
    Stmt.allExits ((List.range (axis + 1)).map fun a : Nat => n.index a) [] [] (rowEnd n s axis extent).test =
      if isOpenRow axis extent && s.element.isFloating then [rowExit n s axis] else [] := by
  rw [rowEnd_test]
  split <;> rfl

/-- Growing a vector does not stop a loop. -/
theorem neverStops_growth (axis : Nat) : ∀ stmt ∈ growth n s axis, stmt.NeverStops := by
  unfold growth
  split
  · exact List.forall_mem_singleton.mpr fun _ _ _ => rfl
  · exact List.forall_mem_nil _

/-- The ways out of the loops over some layers are the ends of the rows among them. -/
theorem exits_layersFrom {inner : List Stmt} (hinner : ∀ stmt ∈ inner, stmt.NeverStops) (layers : List Extent)
    (first : Nat) (before : List Stmt) (tests : List (Expr × Bool)) :
    Stmt.allExits ((List.range first).map fun a : Nat => n.index a) before tests
        (nested (layersFrom n s first layers) inner) =
      ((layers.zipIdx first).filter fun (extent, axis) => isOpenRow axis extent && s.element.isFloating).map
        fun layer => rowExit n s layer.2 := by
  induction layers generalizing first before tests with
  | nil => exact Stmt.allExits_eq_nil hinner
  | cons extent rest ih =>
    have hvars : (List.range first).map (fun a : Nat => n.index a) ++ [n.index first] =
        (List.range (first + 1)).map fun a : Nat => n.index a := by
      rw [List.range_succ, List.map_append]
      rfl
    rw [nested_layersFrom_cons, Stmt.allExits, Stmt.exits, Stmt.allExits, List.append_nil, hvars, Stmt.allExits_append,
      Stmt.allExits_append, exits_rowEnd, Stmt.allExits_eq_nil (neverStops_growth first), ih, List.nil_append,
      List.zipIdx_cons, List.filter_cons]
    split <;> rfl

/-- The ways out of the loops over all layers are the ends of the rows of unknown length, if these are marked. -/
theorem exits_layerLoops {inner : List Stmt} (hinner : ∀ stmt ∈ inner, stmt.NeverStops) (before : List Stmt) :
    Stmt.allExits [] before [] (nested (layerLoops n s) inner) = rowEnds n s := by
  rw [layerLoops_eq]
  refine (exits_layersFrom hinner s.vectors 0 before []).trans ?_
  unfold rowEnds
  cases s.element.isFloating with
  | false => simp
  | true =>
    simp only [Bool.and_true, if_true]
    rw [← s.map_snd_filter_isOpenRow, List.map_map]
    rfl

/-- Plain loops around statements that never stop one. -/
theorem neverStops_plainLoops (first count : Nat) {inner : List Stmt} (hinner : ∀ stmt ∈ inner, stmt.NeverStops) :
    ∀ stmt ∈ nested (n.plainLoops first count) inner, stmt.NeverStops := by
  refine Stmt.neverStops_nested ?_ hinner
  intro l hl
  obtain ⟨axis, _, rfl⟩ := List.mem_map.mp hl
  exact ⟨List.forall_mem_nil _, List.forall_mem_nil _⟩

/-- Filling a block does not stop a loop. -/
theorem neverStops_fillBlock (block : String) : ∀ stmt ∈ fillBlock n s block, stmt.NeverStops :=
  neverStops_plainLoops _ _ (List.forall_mem_map.mpr fun _ _ _ _ _ => rfl)

/-- The declaration of the extents of a block does not stop a loop. -/
theorem neverStops_declareExtents (name : String) : ∀ stmt ∈ declareExtents n s name, stmt.NeverStops := by
  unfold declareExtents
  split
  · exact List.forall_mem_nil _
  · exact List.forall_mem_singleton.mpr fun _ _ _ => rfl

/-- The allocation of a block does not stop a loop. -/
theorem neverStops_declareBlock (name extents : String) : (declareBlock s name extents).NeverStops := by
  unfold declareBlock
  split <;> exact fun _ _ _ => rfl

/-- The declaration of the outermost vector does not stop a loop. -/
theorem neverStops_declareVectors : (declareVectors n s).NeverStops := by
  unfold declareVectors
  split <;> exact fun _ _ _ => rfl

/-- The declarations of the sizes of a tensor do not stop a loop. -/
theorem neverStops_tensorSizes : ∀ stmt ∈ tensorSizes n s, stmt.NeverStops :=
  forall_mem_tensorSizes (fun _ _ _ _ _ => rfl) fun _ _ _ _ _ _ _ => rfl

/-- A lone value has no rows. -/
theorem Shape.openRows_eq_nil (h : s.kind = .scalar ∨ s.kind = .matrix) : s.openRows = [] := by
  have hvectors : s.vectors = [] := by
    by_contra hne
    have hempty : s.vectors.isEmpty = false := by rwa [List.isEmpty_eq_false_iff]
    unfold kind at h
    rw [hempty] at h
    cases hmatrix : s.element.isMatrix <;> simp [hmatrix] at h
  rw [openRows, vectorRank, hvectors]
  rfl

/-- The only ways out of the loops of a conversion to a value are the ends of the rows of unknown length, if these are
marked. -/
theorem exits_valueBody (n : Names) (s : Shape) (before : List Stmt) :
    Stmt.allExits [] before [] (valueBody n s) = rowEnds n s := by
  have happend (item : Expr) : (append n s item).NeverStops := fun _ _ _ => rfl
  unfold valueBody
  cases hkind : s.kind with
  | scalar =>
    rw [rowEnds, Shape.openRows_eq_nil (.inl hkind), List.map_nil, ite_self]
    rfl
  | vectorOfPrimitive =>
    dsimp only
    rw [Stmt.allExits, neverStops_declareVectors, List.nil_append]
    exact exits_layerLoops (List.forall_mem_singleton.mpr (happend _)) _
  | vectorOfMatrix =>
    dsimp only
    have hdeclared : ∀ stmt ∈ declareVectors n s :: declareExtents n s n.blockShape, stmt.NeverStops :=
      List.forall_mem_cons.mpr ⟨neverStops_declareVectors, neverStops_declareExtents _⟩
    rw [Stmt.allExits_append, Stmt.allExits_eq_nil hdeclared, List.nil_append]
    refine exits_layerLoops ?_ _
    rw [List.forall_mem_append, List.forall_mem_cons]
    exact ⟨⟨neverStops_declareBlock _ _, neverStops_fillBlock _⟩, List.forall_mem_singleton.mpr (happend _)⟩
  | matrix =>
    rw [rowEnds, Shape.openRows_eq_nil (.inr hkind), List.map_nil, ite_self]
    apply Stmt.allExits_eq_nil
    rw [List.forall_mem_append, List.forall_mem_cons]
    exact ⟨neverStops_declareExtents _, neverStops_declareBlock _ _, neverStops_fillBlock _⟩

/-- A conversion to a tensor runs all its loops to the end. -/
theorem neverStops_toTensor (n : Names) (s : Shape) :
    ∀ stmt ∈ (toTensor n s).sizes ++ (toTensor n s).body, stmt.NeverStops := by
  refine List.forall_mem_append.mpr ⟨List.forall_mem_append.mpr ⟨?_, ?_⟩, neverStops_plainLoops _ _ ?_⟩
  · exact List.forall_mem_map.mpr fun _ _ _ _ _ => rfl
  · exact List.forall_mem_map.mpr fun _ _ _ _ _ => rfl
  · unfold copyInnermost
    split
    · exact List.forall_mem_map.mpr fun _ _ _ _ _ => rfl
    · exact List.forall_mem_singleton.mpr fun _ _ _ => rfl

/-- The only ways out of the loops of a whole conversion to a value are the ends of the rows of unknown length. -/
theorem exitsIn_toValue (n : Names) (s : Shape) :
    exitsIn ((toValue n s).sizes ++ (toValue n s).body) = rowEnds n s := by
  have hsizes : Stmt.allExits [] [] [] (toValue n s).sizes = [] := Stmt.allExits_eq_nil neverStops_tensorSizes
  rw [exitsIn, Stmt.allExits_append, hsizes, List.nil_append]
  exact exits_valueBody n s _

end Exits

/-! ## Reports -/

/-- The type of a value has no spaces in its name. -/
theorem Element.space_not_mem_scalar (e : Element) : ' ' ∉ e.scalar.toList := by
  have hdepth (depth : Depth) : ' ' ∉ depth.scalar.toList := by cases depth <;> decide
  cases e with
  | primitive type endsLine => cases type <;> cases endsLine <;> decide
  | matrix depth written container endsLine => exact hdepth depth

/-- A report starts with the name of its operand and the number of its row. -/
theorem unmarkedRowRecord_message (name : String) (s : Shape) (axis : Nat) :
    ∃ rest, (unmarkedRowRecord name s axis).message = name ++ ": dimension " ++ toString axis ++ " " ++ rest := by
  have hbehind : " is a dynamic vector dimension of " = " " ++ "is a dynamic vector dimension of " := by decide
  rw [unmarkedRowRecord, hbehind]
  simp only [String.append_assoc]
  exact ⟨_, rfl⟩

/-- Reports of other operands and of other rows are others. -/
theorem unmarkedRowRecord_inj {name name' : String} {s s' : Shape} {axis axis' : Nat}
    (h : unmarkedRowRecord name s axis = unmarkedRowRecord name' s' axis') : name = name' ∧ axis = axis' := by
  have hdigits (axis : Nat) : (toString axis).toList = Nat.toDigits 10 axis := by simp
  have hspace (axis : Nat) : ' ' ∉ Nat.toDigits 10 axis := by
    intro hmem
    cases Nat.isDigit_of_mem_toDigits (by omega) (by omega) hmem
  -- the message is taken apart from its end: the type stands behind the last space, and so does the number before it
  have hmessage (name : String) (s : Shape) (axis : Nat) : (unmarkedRowRecord name s axis).message.toList =
      (((name.toList ++ ": dimension".toList) ++ ' ' :: Nat.toDigits 10 axis) ++
        " is a dynamic vector dimension of".toList ++ ' ' :: s.element.scalar.toList) ++
          (" elements; integers have no NaN end marker, so every row is copied to the full tensor extent").toList := by
    have hbefore : (": dimension " : String).toList = ": dimension".toList ++ [' '] := by decide
    have hbetween : (" is a dynamic vector dimension of " : String).toList =
        " is a dynamic vector dimension of".toList ++ [' '] := by decide
    simp only [unmarkedRowRecord, String.toList_append, hdigits, hbefore, hbetween, List.append_assoc,
      List.singleton_append]
  have hmessages := congrArg (fun r => r.message.toList) h
  simp only [hmessage, List.append_left_inj] at hmessages
  obtain ⟨hfronts, _⟩ := (append_cons_eq_iff_of_not_mem s.element.space_not_mem_scalar
    s'.element.space_not_mem_scalar).mp hmessages
  rw [List.append_left_inj] at hfronts
  obtain ⟨hnames, hnumbers⟩ := (append_cons_eq_iff_of_not_mem (hspace axis) (hspace axis')).mp hfronts
  rw [List.append_left_inj, String.toList_inj] at hnames
  rw [← numeralValue_toDigits axis, hnumbers, numeralValue_toDigits]
  exact ⟨hnames, rfl⟩

/-- Each row is reported once. -/
theorem nodup_rowReports (name : String) (s : Shape) : (rowReports name s).Nodup := by
  unfold rowReports
  split
  · exact List.nodup_nil
  · refine List.Nodup.map (fun axis axis' h => (unmarkedRowRecord_inj h).2) ?_
    exact List.nodup_range.filter _

/-- The loops over the layers leave the reports of the rows of unknown length, if these are not marked. -/
theorem flatMap_records_layers (name : String) (s : Shape) :
    (layers ⟨name⟩ s).flatMap LayerLoop.records = rowReports name s := by
  rw [layers, List.flatMap_map, rowReports, ← s.map_snd_filter_isOpenRow]
  simp only [rowEnd_records]
  cases s.element.isFloating with
  | true => exact List.flatMap_eq_nil_iff.mpr fun _ _ => rfl
  | false =>
    simp only [Bool.false_eq_true, if_false]
    generalize s.vectors.zipIdx = rows
    induction rows with
    | nil => rfl
    | cons row rest ih =>
      rw [List.flatMap_cons, List.filter_cons, ih]
      split <;> rfl

/-- The warnings of a conversion to a value are the reports of its rows. -/
theorem warningsIn_build_toValue (name : String) (s : Shape) :
    warningsIn (Conversion.build name s .toValue).records = rowReports name s := by
  have hrecords : (Conversion.build name s .toValue).records = rowReports name s ++ [builtRecord name s .toValue] := by
    rw [← flatMap_records_layers]
    exact List.append_nil _
  have hall : ∀ r ∈ rowReports name s, (r.level == .warning) = true := by
    unfold rowReports
    split
    · exact List.forall_mem_nil _
    · exact List.forall_mem_map.mpr fun _ _ => rfl
  rw [hrecords, warningsIn, List.filter_append, List.filter_eq_self.mpr hall]
  exact List.append_nil _

/-- A conversion to a tensor gives no warning. -/
theorem warningsIn_build_toTensor (name : String) (s : Shape) :
    warningsIn (Conversion.build name s .toTensor).records = [] := rfl

end TensorBridge
