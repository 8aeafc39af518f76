import TensorBridge.Proofs.Conversion.Outputs
import TensorBridge.Conversion.Build

/-!
# Containers with empty layers

The size of each axis of a container is read off the first element of the layer around it. The test for an empty
container looks at the outermost vector alone. So the sizes are there exactly if no layer is empty whose first
element is asked for its size; and then they are the extents, as far as there is an element that has them.
-/

namespace TensorBridge

open Conversion

variable {α : Type} {m : Platform α} {n : Names} {s : Shape} {σ : State α} {v : Object α}

/-! ## Declarations of sizes -/

section Measure

variable {size : Nat → Expr} {number? : Nat → Option Int} {count : Nat}

/-- Sizes of a value that all have a number are declared with it. -/
theorem runAll_measure (hvalue : σ.get? (n.part .value) = some v)
    (hsize : ∀ axis < count, ∀ τ : State α, τ.get? (n.part .value) = some v →
      eval m τ (size axis) = (number? axis).map .number)
    (hall : ∀ axis < count, (number? axis).isSome = true) :
    ∃ τ, runAll m ((List.range count).map fun axis => n.declareSize axis (size axis)) σ = .next τ ∧
      τ.get? (n.part .value) = some v ∧
      ∀ axis < count, τ.get? (n.part (.size axis)) = (number? axis).map fun number => .number (m.toInt32 number) := by
  induction count with
  | zero => exact ⟨σ, rfl, hvalue, fun axis haxis => absurd haxis (Nat.not_lt_zero axis)⟩
  | succ count ih =>
    obtain ⟨τ, hrun, hkept, hsizes⟩ := ih (fun axis haxis => hsize axis (Nat.lt_succ_of_lt haxis)) fun axis haxis =>
      hall axis (Nat.lt_succ_of_lt haxis)
    obtain ⟨number, hnumber⟩ := Option.isSome_iff_exists.mp (hall count (Nat.lt_succ_self count))
    have hlast := run_declareSize (n := n) (hsize count (Nat.lt_succ_self count) τ hkept) count
    rw [hnumber] at hlast
    refine ⟨τ.declare (n.part (.size count)) (.number (m.toInt32 number)), ?_, ?_, ?_⟩
    · rw [List.range_succ, List.map_append, runAll_append_of_next m hrun]
      exact runAll_singleton_of_next m hlast
    · rw [State.get?_declare_part, if_neg (by simp), hkept]
    · intro axis haxis
      rw [State.get?_declare_part]
      by_cases hlt : axis = count
      · rw [if_pos (congrArg Part.size hlt), hlt, hnumber]
        rfl
      · rw [if_neg fun h => hlt (Part.size.inj h)]
        exact hsizes axis (by omega)

/-- Without a number for one of the sizes, their declarations are stuck. -/
theorem runAll_measure_stuck (hvalue : σ.get? (n.part .value) = some v)
    (hsize : ∀ axis < count, ∀ τ : State α, τ.get? (n.part .value) = some v →
      eval m τ (size axis) = (number? axis).map .number)
    {axis : Nat} (haxis : axis < count) (hnone : number? axis = none) :
    runAll m ((List.range count).map fun axis => n.declareSize axis (size axis)) σ = .stuck := by
  induction count generalizing axis with
  | zero => omega
  | succ count ih =>
    have hbefore (a : Nat) (ha : a < count) := hsize a (Nat.lt_succ_of_lt ha)
    rw [List.range_succ, List.map_append, runAll_append]
    by_cases hall : ∀ a < count, (number? a).isSome = true
    · -- All sizes before the last one are there, so it is this one that is not.
      obtain ⟨τ, hrun, hkept, _⟩ := runAll_measure hvalue hbefore hall
      have hlast : axis = count := by
        by_contra hne
        have hsome := hall axis (by omega)
        rw [hnone] at hsome
        cases hsome
      rw [hlast] at hnone
      have hsizeLast := run_declareSize (n := n) (hsize count (Nat.lt_succ_self count) τ hkept) count
      rw [hnone] at hsizeLast
      rw [hrun]
      exact runAll_cons_of_stuck m hsizeLast []
    · simp only [not_forall] at hall
      obtain ⟨a, ha, hmissing⟩ := hall
      rw [ih hbefore ha (Option.not_isSome_iff_eq_none.mp hmissing)]
      rfl

end Measure

/-! ## Sizes of a container -/

/-- The expression for the size of an axis of a container. -/
def containerSize (n : Names) (s : Shape) (axis : Nat) : Expr :=
  if axis < s.vectorRank then .method ((Expr.name n.value).subscripts (zeroIndices axis)) false "size" []
  else blockSize s (firstBlock n s) (axis - s.vectorRank)

/-- The sizes of a container are declared axis by axis. -/
theorem toTensor_sizes_eq (n : Names) (s : Shape) :
    (toTensor n s).sizes = (List.range s.rank).map fun axis => n.declareSize axis (containerSize n s axis) := by
  rw [toTensor, blockSizes_eq, layerSizes, Shape.rank, List.range_add, List.map_append, List.map_map]
  apply congrArg₂ (· ++ ·)
  · apply List.map_congr_left
    intro axis haxis
    rw [containerSize, if_pos (List.mem_range.mp haxis)]
  · apply List.map_congr_left
    intro offset _
    rw [Function.comp_apply, containerSize, if_neg (by omega), Nat.add_sub_cancel_left]

namespace Shape

/-- The number of layers whose first element is taken to read the size of an axis. -/
def openedFor (s : Shape) (axis : Nat) : Nat :=
  if axis < s.vectorRank then axis else if s.element.container.isFixed then 0 else s.vectorRank

/-- The number of layers whose first element is taken to read all sizes: all of them for blocks that are measured,
and otherwise all but the innermost one. -/
def openedLayers (s : Shape) : Nat :=
  if s.element.isMatrix = true ∧ s.element.container.isFixed = false then s.vectorRank else s.vectorRank - 1

/-- No size opens more layers. -/
theorem IsAccepted.openedFor_le (hs : s.IsAccepted) {axis : Nat} (haxis : axis < s.rank) :
    s.openedFor axis ≤ s.openedLayers := by
  unfold openedFor openedLayers
  by_cases hlayer : axis < s.vectorRank
  · rw [if_pos hlayer]
    split <;> omega
  · rw [if_neg hlayer]
    have hblock : s.block ≠ [] := by
      intro h
      rw [rank, blockRank, h, List.length_nil] at haxis
      omega
    have hmatrix : s.element.isMatrix = true := by
      rw [Ne, hs.block_eq_nil_iff, Bool.not_eq_false] at hblock
      exact hblock
    cases hfixed : s.element.container.isFixed with
    | true => exact Nat.zero_le _
    | false =>
      refine Nat.le_of_eq ?_
      rw [if_neg (by simp), if_pos ⟨hmatrix, rfl⟩]

/-- Some size opens that many. -/
theorem IsAccepted.exists_openedFor (hs : s.IsAccepted) (hvectors : s.vectors ≠ []) :
    ∃ axis < s.rank, s.openedFor axis = s.openedLayers := by
  have hpos : 0 < s.vectorRank := List.length_pos_iff.mpr hvectors
  unfold openedLayers
  by_cases hmeasured : s.element.isMatrix = true ∧ s.element.container.isFixed = false
  · have hblock : s.block ≠ [] := by
      rw [Ne, hs.block_eq_nil_iff, hmeasured.1]
      exact Bool.noConfusion
    have hrank : 0 < s.blockRank := List.length_pos_iff.mpr hblock
    refine ⟨s.vectorRank, by rw [rank]; omega, ?_⟩
    rw [if_pos hmeasured, openedFor, if_neg (Nat.lt_irrefl _), hmeasured.2, if_neg (by simp)]
  · refine ⟨s.vectorRank - 1, by rw [rank]; omega, ?_⟩
    rw [if_neg hmeasured, openedFor, if_pos (by omega)]

/-- The number that the size of an axis is read as: its extent, or what the type of a fixed block says. There is
none if a layer that is opened for it is empty. -/
def sizeNumber? (s : Shape) (extents : List Nat) (axis : Nat) : Option Int :=
  if 0 ∈ extents.take (s.openedFor axis) then none
  else if s.vectorRank ≤ axis ∧ s.element.container.isFixed = true then
    some ((s.fixedExtents.getD (axis - s.vectorRank) 0 : Nat) : Int)
  else some ((extents.getD axis 0 : Nat) : Int)

/-- Some size has no number if and only if one of the opened layers is empty. -/
theorem IsAccepted.exists_sizeNumber?_eq_none_iff (hs : s.IsAccepted) (hvectors : s.vectors ≠ []) (extents : List Nat) :
    (∃ axis < s.rank, s.sizeNumber? extents axis = none) ↔ 0 ∈ extents.take s.openedLayers := by
  have hnone (axis : Nat) : s.sizeNumber? extents axis = none ↔ 0 ∈ extents.take (s.openedFor axis) := by
    unfold sizeNumber?
    split
    · next h => simp [h]
    · next h =>
      split <;> simp [h]
  simp only [hnone]
  constructor
  · rintro ⟨axis, haxis, hzero⟩
    exact (List.take_subset_take_left extents (hs.openedFor_le haxis)) hzero
  · intro hzero
    obtain ⟨axis, haxis, hopened⟩ := hs.exists_openedFor hvectors
    exact ⟨axis, haxis, hopened ▸ hzero⟩

end Shape

/-- No element lies behind zeros if one of the layers that they open is empty. -/
theorem eval_first_of_empty (hread : m.mayRead = true) {layers : Nat} {extents : List Nat}
    (h : s.IsNested layers extents v) {base : Expr} (hbase : eval m σ base = some v) {depth : Nat}
    (hdepth : depth ≤ layers) (hzero : 0 ∈ extents.take depth) :
    eval m σ (base.subscripts (zeroIndices depth)) = none := by
  induction h generalizing base depth with
  | item _ =>
    obtain rfl : depth = 0 := by omega
    simp at hzero
  | @row layers extents items hitems ih =>
    cases depth with
    | zero => simp at hzero
    | succ depth =>
      obtain ⟨index, hindex, hposition⟩ := Option.bind_eq_some_iff.mp (eval_count m σ 0)
      have hfirst : eval m σ (.subscript base (.count 0)) = items[0]? := by
        rw [eval, hbase, Option.bind_some, hindex, Option.bind_some, Object.item?, if_pos hread, hposition,
          Option.bind_some]
      change eval m σ ((Expr.subscript base (.count 0)).subscripts (zeroIndices depth)) = none
      rw [List.take_succ_cons, List.mem_cons] at hzero
      cases hitemsEq : items with
      | nil =>
        rw [hitemsEq, List.getElem?_nil] at hfirst
        exact eval_subscripts_of_none m σ hfirst _
      | cons x rest =>
        rw [hitemsEq, List.getElem?_cons_zero] at hfirst
        rw [hitemsEq, List.length_cons] at hzero
        have hmem : x ∈ items := by rw [hitemsEq]; exact List.mem_cons_self
        exact ih x hmem hfirst (by omega) (hzero.resolve_left (by omega))

/-- The size of an axis is read as its number. -/
theorem eval_containerSize (hread : m.mayRead = true) (hvalue : σ.get? (n.part .value) = some v) {extents : List Nat}
    (h : s.HasExtents extents v) {axis : Nat} (haxis : axis < s.rank) :
    eval m σ (containerSize n s axis) = (s.sizeNumber? extents axis).map .number := by
  have hbase : eval m σ (.name n.value) = some v := by
    rw [eval, Names.value_eq_part, hvalue]
  have hpos {depth : Nat} (hzero : 0 ∉ extents.take depth) : ∀ e ∈ extents.take depth, 0 < e :=
    fun e he => Nat.pos_of_ne_zero fun heq => hzero (heq ▸ he)
  unfold containerSize Shape.sizeNumber? Shape.openedFor
  by_cases hlayer : axis < s.vectorRank
  · rw [if_pos hlayer, if_pos hlayer]
    by_cases hzero : 0 ∈ extents.take axis
    · rw [if_pos hzero, eval, eval_first_of_empty hread h.nested hbase (by omega) hzero]
      rfl
    · rw [if_neg hzero, if_neg (by omega), eval_layerSize hread hvalue h hlayer (hpos hzero)]
      rfl
  · rw [if_neg hlayer, if_neg hlayer]
    have hoffset : axis - s.vectorRank < s.blockRank := by
      rw [Shape.rank] at haxis
      omega
    cases hfixed : s.element.container.isFixed with
    | true =>
      rw [if_pos rfl, if_neg (by simp), if_pos ⟨by omega, rfl⟩, eval_blockSize_of_fixed hfixed]
      rfl
    | false =>
      simp only [Bool.false_eq_true, and_false, ↓reduceIte]
      by_cases hzero : 0 ∈ extents.take s.vectorRank
      · rw [if_pos hzero, blockSize, if_neg (by simp [hfixed]), eval, eval, firstBlock,
          eval_first_of_empty hread h.nested hbase (Nat.le_refl _) hzero]
        rfl
      · rw [if_neg hzero, eval_blockSize hread hvalue h (hpos hzero) hoffset,
          Nat.add_sub_cancel' (by omega)]
        rfl

/-- The extents of the blocks of a fixed container are those of its type, if there is a block. -/
theorem Shape.HasExtents.getD_fixedExtents {extents : List Nat} (h : s.HasExtents extents v)
    (hfixed : s.element.container.isFixed = true) (hpos : ∀ e ∈ extents.take s.vectorRank, 0 < e) {axis : Nat}
    (hblock : s.vectorRank ≤ axis) (haxis : axis < s.rank) :
    s.fixedExtents.getD (axis - s.vectorRank) 0 = extents.getD axis 0 := by
  obtain ⟨item, _, hitem⟩ := h.nested.exists_item hpos
  have hlength : (extents.drop s.vectorRank).length = s.blockRank := by
    rw [List.length_drop, h.length_eq, Shape.rank, Nat.add_sub_cancel_left]
  have hget : (extents.drop s.vectorRank).getD (axis - s.vectorRank) 0 = extents.getD axis 0 := by
    simp [List.getElem?_drop, Nat.add_sub_cancel' hblock]
  rw [← hget]
  generalize extents.drop s.vectorRank = rest at hitem hlength
  cases hitem with
  | value a _ =>
    rw [List.length_nil] at hlength
    rw [Shape.rank] at haxis
    omega
  | block _ b _ _ hextents _ => rw [hextents hfixed]

/-- The size of an axis is read as its extent, if there is an element that has it. -/
theorem Shape.HasExtents.sizeNumber?_eq {extents : List Nat} (h : s.HasExtents extents v) {axis : Nat}
    (haxis : axis < s.rank) (hreached : ∀ e ∈ extents.take (min axis s.vectorRank), 0 < e) :
    s.sizeNumber? extents axis = some ((extents.getD axis 0 : Nat) : Int) := by
  have hopened : s.openedFor axis ≤ min axis s.vectorRank := by
    unfold Shape.openedFor
    split
    · omega
    · split <;> omega
  have hzero : 0 ∉ extents.take (s.openedFor axis) := fun hmem =>
    Nat.lt_irrefl 0 (hreached 0 (List.take_subset_take_left extents hopened hmem))
  rw [Shape.sizeNumber?, if_neg hzero]
  split
  · next hblock =>
    rw [Nat.min_eq_right hblock.1] at hreached
    rw [h.getD_fixedExtents hblock.2 hreached hblock.1 haxis]
  · rfl

/-- The test for an empty container asks whether the outermost vector is empty. -/
theorem eval_emptyTest (hvectors : s.vectors ≠ []) (hvalue : σ.get? (n.part .value) = some v) {extents : List Nat}
    (h : s.HasExtents extents v) :
    eval m σ (.method (.name n.value) false "empty" []) = some (.truth (decide (extents.head? = some 0))) := by
  obtain ⟨layers, hlayers⟩ : ∃ layers, s.vectorRank = layers + 1 :=
    Nat.exists_eq_add_one.mpr (List.length_pos_iff.mpr hvectors)
  have hnested := h.nested
  rw [hlayers] at hnested
  cases hnested with
  | @row _ rest items _ =>
    have hempty : items.isEmpty = decide ((items.length :: rest).head? = some 0) := by
      cases items with
      | nil => rfl
      | cons x others => simp
    rw [eval, eval, Names.value_eq_part, hvalue, Option.bind_some, evalAll, ← hempty]
    simp [callMethod]

/-- The test for an empty container looks at the outermost vector, and the sizes of a container are read exactly if
none of the layers is empty whose first element they open. Then they are the extents at each depth that has an
element. -/
theorem toTensor_sizes_stuck_iff {tokens : List Value} {s : Shape} (hs : Shape.ofTokens tokens = .ok s)
    (hvectors : s.vectors ≠ []) (name : String) (m : Platform α) (hread : m.mayRead = true) {extents : List Nat}
    {v : Object α} (h : s.HasExtents extents v) (σ : State α) (hvalue : σ.get? (Names.value ⟨name⟩) = some v) :
    ∃ c test, (Conversion.build name s .toTensor).outcome = .ok c ∧ c.emptyTest = some test ∧
      eval m σ test = some (.truth (decide (extents.head? = some 0))) ∧
      (runAll m c.sizes σ = .stuck ↔ 0 ∈ extents.take s.openedLayers) ∧
      (runAll m c.sizes σ ≠ .stuck →
        ∃ τ, runAll m c.sizes σ = .next τ ∧
          ∀ (axis extent : Nat), extents[axis]? = some extent → (∀ e ∈ extents.take (min axis s.vectorRank), 0 < e) →
            τ.get? (Names.size ⟨name⟩ axis) = some (.number (m.toInt32 extent))) := by
  have haccepted := Shape.isAccepted_of_ofTokens hs
  have hsize : ∀ axis < s.rank, ∀ τ : State α, τ.get? (Names.part ⟨name⟩ .value) = some v →
      eval m τ (containerSize ⟨name⟩ s axis) = (s.sizeNumber? extents axis).map .number :=
    fun axis haxis τ hτ => eval_containerSize hread hτ h haxis
  have hnone := haccepted.exists_sizeNumber?_eq_none_iff hvectors extents
  have htest : (toTensor ⟨name⟩ s).emptyTest = some (.method (.name (Names.value ⟨name⟩)) false "empty" []) := by
    rw [toTensor, if_neg (by simpa using hvectors)]
  refine ⟨toTensor ⟨name⟩ s, _, rfl, htest, eval_emptyTest hvectors hvalue h, ?_⟩
  rw [toTensor_sizes_eq, ← hnone]
  by_cases hempty : ∃ axis < s.rank, s.sizeNumber? extents axis = none
  · obtain ⟨axis, haxis, hmissing⟩ := hempty
    have hrun := runAll_measure_stuck hvalue hsize haxis hmissing
    exact ⟨iff_of_true hrun ⟨axis, haxis, hmissing⟩, fun hne => absurd hrun hne⟩
  · obtain ⟨τ, hrun, _, hsizes⟩ := runAll_measure hvalue hsize fun axis haxis =>
      Option.isSome_iff_ne_none.mpr fun hmissing => hempty ⟨axis, haxis, hmissing⟩
    refine ⟨iff_of_false (by simp [hrun]) hempty, fun _ => ⟨τ, hrun, fun axis extent hextent hreached => ?_⟩⟩
    have haxis : axis < s.rank := by
      rw [← h.length_eq]
      exact (List.getElem?_eq_some_iff.mp hextent).1
    have hget : extents.getD axis 0 = extent := by simp [hextent]
    have hsizeOf := hsizes axis haxis
    rw [h.sizeNumber?_eq haxis hreached, hget] at hsizeOf
    rw [Names.size_eq_part]
    exact hsizeOf

/-- The value `x` alone. -/
def valueState (v : Object Nat) : State Nat := ⟨[fun y => if y = "x_cv" then some v else none], []⟩

/-- Two empty vectors: the length of the first one is a size. -/
theorem toTensor_sizes_stuck_iff_empty_rows :
    ∃ c, (Conversion.build "x" ⟨[none, none], [], .primitive .int false⟩ .toTensor).outcome = .ok c ∧
      ∃ τ, runAll (.wrapping fun _ => false) c.sizes
          (valueState (.vector (.vector (.scalar "int")) [.vector (.scalar "int") [], .vector (.scalar "int") []])) =
            .next τ ∧
        τ.get? "x_dims_size_0" = some (.number 2) ∧ τ.get? "x_dims_size_1" = some (.number 0) := by
  have htokens : Shape.ofTokens [.string "vector:none", .string "vector:none", .string "int"] =
      .ok ⟨[none, none], [], .primitive .int false⟩ := by rfl
  have hextents : Shape.HasExtents ⟨[none, none], [], .primitive .int false⟩ [2, 0]
      (.vector (.vector (.scalar "int"))
        [.vector (.scalar "int") [], (.vector (.scalar "int") [] : Object Nat)]) := by
    refine ⟨rfl, @Shape.IsNested.row _ _ 1 [0] [_, _] fun x hx => ?_⟩
    have hempty : x = .vector (.scalar "int") [] := by simpa using hx
    rw [hempty]
    exact @Shape.IsNested.row _ _ 0 [] [] (List.forall_mem_nil _)
  obtain ⟨c, test, hc, _, _, hstuck, hsizes⟩ := toTensor_sizes_stuck_iff htokens (List.cons_ne_nil _ _) "x"
    (.wrapping fun _ => false) rfl hextents (valueState _) rfl
  obtain ⟨τ, hrun, hsize⟩ := hsizes fun h => absurd (hstuck.mp h) (by decide)
  exact ⟨c, hc, τ, hrun, hsize 0 2 rfl (by decide), hsize 1 0 rfl (by decide)⟩

/-- One vector without vectors inside is not empty, but the third size opens its first vector. -/
theorem toTensor_sizes_open_empty_layer :
    Shape.ofTokens [.string "vector:none", .string "vector:none", .string "vector:none", .string "int"] =
        .ok ⟨[none, none, none], [], .primitive .int false⟩ ∧
      Shape.HasExtents ⟨[none, none, none], [], .primitive .int false⟩ [1, 0, 0]
        (.vector (.vector (.vector (.scalar "int"))) [(.vector (.vector (.scalar "int")) [] : Object Nat)]) ∧
      ∃ c test, (Conversion.build "x" ⟨[none, none, none], [], .primitive .int false⟩ .toTensor).outcome = .ok c ∧
        c.emptyTest = some test ∧
        eval (.wrapping fun _ => false)
          (valueState (.vector (.vector (.vector (.scalar "int"))) [.vector (.vector (.scalar "int")) []])) test =
            some (.truth false) ∧
        runAll (.wrapping fun _ => false) c.sizes
          (valueState (.vector (.vector (.vector (.scalar "int"))) [.vector (.vector (.scalar "int")) []])) =
            .stuck := by
  refine ⟨by rfl, ⟨rfl, @Shape.IsNested.row _ _ 2 [0, 0] [_] fun x hx => ?_⟩, _, _, rfl, rfl, rfl, rfl⟩
  obtain rfl := List.mem_singleton.mp hx
  exact @Shape.IsNested.row _ _ 1 [0] [] (List.forall_mem_nil _)

end TensorBridge
