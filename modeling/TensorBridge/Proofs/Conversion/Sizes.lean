import TensorBridge.Proofs.Conversion.Container

/-!
# Sizes of axes

Both conversions start by declaring the size of every axis, in the order of the axes. Towards the value, the
sizes that the type fixes are required afterwards: the run goes on exactly if the tensor is admitted.
-/

namespace TensorBridge

open Conversion

variable {α : Type} {m : Platform α} {n : Names} {s : Shape} {t : Tensor α} {σ : State α}

/-- The sizes of the first axes declared, one after the other. -/
def State.declareSizes (σ : State α) (n : Names) (extents : List Nat) : Nat → State α
  | 0 => σ
  | count + 1 =>
    (declareSizes σ n extents count).declare (n.part (.size count)) (.number (extents.getD count 0 : Nat))

namespace State

/-- Sizes leave the other variables alone. -/
theorem get?_declareSizes (σ : State α) (n : Names) (extents : List Nat) (count : Nat) {p : Part}
    (hp : ∀ axis, p ≠ .size axis) : (σ.declareSizes n extents count).get? (n.part p) = σ.get? (n.part p) := by
  induction count with
  | zero => rfl
  | succ count ih => rw [declareSizes, get?_declare_part, if_neg (hp count), ih]

/-- The declared sizes are found. -/
theorem get?_declareSizes_size (σ : State α) (n : Names) (extents : List Nat) {count axis : Nat} (h : axis < count) :
    (σ.declareSizes n extents count).get? (n.part (.size axis)) = some (.number (extents.getD axis 0 : Nat)) := by
  induction count with
  | zero => omega
  | succ count ih =>
    rw [declareSizes, get?_declare_part]
    by_cases haxis : axis = count
    · rw [if_pos (congrArg Part.size haxis), haxis]
    · rw [if_neg (fun heq => haxis (Part.size.inj heq)), ih (by omega)]

/-- With all sizes declared, the variables hold the extents. -/
theorem holdsSizes_declareSizes (σ : State α) (n : Names) (extents : List Nat) :
    (σ.declareSizes n extents extents.length).HoldsSizes n extents := by
  intro axis extent h
  obtain ⟨hlt, rfl⟩ := List.getElem?_eq_some_iff.mp h
  rw [get?_declareSizes_size σ n extents hlt]
  simp [hlt]

/-- Sizes leave the output tensors alone. -/
theorem outputs_declareSizes (σ : State α) (n : Names) (extents : List Nat) (count : Nat) :
    (σ.declareSizes n extents count).outputs = σ.outputs := by
  induction count with
  | zero => rfl
  | succ count ih => rw [declareSizes, outputs_declare, ih]

end State

/-- A size is declared as its expression is cast; without a value of the expression there is none. -/
theorem run_declareSize {e : Expr} {number? : Option Int} (he : eval m σ e = number?.map .number) (axis : Nat) :
    run m (n.declareSize axis e) σ =
      .ofOption (number?.map fun number => σ.declare (n.part (.size axis)) (.number (m.toInt32 number))) := by
  have hcast : eval m σ (.callNamed "static_cast<int32>" [e]) =
      number?.map fun number => .number (m.toInt32 number) := by
    rw [Expr.callNamed, eval, evalAll, he]
    cases number? with
    | none => rfl
    | some number =>
      rw [Option.map_some, Option.bind_some, evalAll]
      change callFunction m σ "static_cast<int32>" [.number number] = _
      rw [callFunction, if_pos rfl]
      rfl
  change run m (.constant "int32" (n.size axis) (.callNamed "static_cast<int32>" [e])) σ = _
  rw [Stmt.constant, run, Names.size_eq_part]
  change Outcome.ofOption ((eval m σ (.callNamed "static_cast<int32>" [e])).map _) = _
  rw [hcast, Option.map_map]
  rfl

/-- Declarations of the sizes of consecutive axes. -/
theorem runAll_declareCounts {counts : List Nat} (first count : Nat) (size : Nat → Expr) (number : Nat → Int)
    (hcast : ∀ k < count, m.toInt32 (number k) = (counts.getD (first + k) 0 : Nat))
    (hsize : ∀ k < count, eval m (σ.declareSizes n counts (first + k)) (size k) = some (.number (number k))) :
    runAll m ((List.range count).map fun k => n.declareSize (first + k) (size k)) (σ.declareSizes n counts first) =
      .next (σ.declareSizes n counts (first + count)) := by
  induction count with
  | zero => rfl
  | succ count ih =>
    have hbefore := ih (fun k hk => hcast k (by omega)) fun k hk => hsize k (by omega)
    have hnumber : eval m (σ.declareSizes n counts (first + count)) (size count) =
        (some (number count)).map .number := hsize count (by omega)
    have hlast := run_declareSize (n := n) hnumber (first + count)
    rw [Option.map_some, hcast count (by omega)] at hlast
    rw [List.range_succ, List.map_append, runAll_append_of_next m hbefore]
    exact runAll_singleton_of_next m hlast

/-- Sizes that the cast keeps are declared as they are. -/
theorem runAll_declareSizes {extents : List Nat} (hcast : ∀ e ∈ extents, m.toInt32 (e : Nat) = (e : Nat))
    (first count : Nat) (hcount : first + count ≤ extents.length) (size : Nat → Expr)
    (hsize : ∀ k < count, eval m (σ.declareSizes n extents (first + k)) (size k) =
      some (.number (extents.getD (first + k) 0 : Nat))) :
    runAll m ((List.range count).map fun k => n.declareSize (first + k) (size k)) (σ.declareSizes n extents first) =
      .next (σ.declareSizes n extents (first + count)) := by
  refine runAll_declareCounts first count size (fun k => (extents.getD (first + k) 0 : Nat)) ?_ hsize
  intro k hk
  apply hcast
  have hlt : first + k < extents.length := by omega
  simp [hlt]

/-! ## Requirements -/

/-- A list of requirements lets the run go on if all of them hold. -/
theorem runAll_requirements {β : Type} (items : List β) (condition report : β → Expr) (p : β → Prop)
    [DecidablePred p] (h : ∀ b ∈ items, eval m σ (condition b) = some (.truth (decide (p b)))) :
    runAll m (items.map fun b => requireThat (condition b) (report b)) σ =
      if items.all fun b => decide (p b) then .next σ else .refused := by
  induction items with
  | nil => rfl
  | cons b rest ih =>
    have hfirst : run m (requireThat (condition b) (report b)) σ = if p b then .next σ else .refused := by
      rw [requireThat, Expr.callNamed, run, execute, if_pos rfl, h b List.mem_cons_self]
      by_cases hb : p b
      · simp [hb]
      · simp [hb]
    have hrest := ih fun c hc => h c (List.mem_cons_of_mem b hc)
    rw [List.map_cons, runAll, hfirst]
    by_cases hb : p b
    · rw [if_pos hb, List.all_cons, decide_eq_true hb, Bool.true_and]
      exact hrest
    · rw [if_neg hb, List.all_cons, decide_eq_false hb, Bool.false_and]
      rfl

/-- The size of an axis is compared with a number. -/
theorem eval_sizeEquals (hσ : σ.HoldsSizes n t.extents) {axis : Nat} (haxis : axis < t.extents.length) (k : Nat) :
    eval m σ (.binary "==" (n.sizeOf axis) (.count k)) = some (.truth (decide (t.extents.getD axis 0 = k))) := by
  have hsize : σ.get? (n.size axis) = some (.number (t.extents.getD axis 0 : Nat)) := by
    rw [Names.size_eq_part]
    exact hσ axis _ (by simp [haxis])
  rw [eval, Names.sizeOf, eval, hsize, Expr.count, eval]
  simp only [Option.bind_some, Object.compare?, ↓reduceIte, Int.natCast_inj]

/-- The extents of a block are those that its container fixes if they agree axis by axis. -/
theorem blockExtents_eq_fixedExtents_iff {extents : List Nat} (hrank : extents.length = s.tensorRank) :
    s.blockExtents extents = s.fixedExtents ↔
      ∀ b ∈ s.block.zipIdx s.vectorRank, extents.getD b.2 0 = b.1.getD 0 := by
  have hle : s.vectorRank + s.block.length ≤ extents.length := by
    rw [hrank, Shape.tensorRank, Shape.rank, Shape.blockRank]
    omega
  constructor
  · rintro heq ⟨extent, axis⟩ hb
    obtain ⟨haxis, hextent⟩ := List.mem_zipIdx_iff_le_and_getElem?_sub.mp hb
    have hget := congrArg (·[axis - s.vectorRank]?) heq
    obtain ⟨hlt, _⟩ := List.getElem?_eq_some_iff.mp hextent
    simp only [Shape.blockExtents, Shape.fixedExtents, List.getElem?_map, hextent, List.getElem?_take,
      List.getElem?_drop, Shape.blockRank, if_pos hlt, Option.map_some] at hget
    rw [Nat.add_sub_cancel' haxis] at hget
    simp [hget]
  · intro hall
    refine List.ext_getElem? fun i => ?_
    rw [Shape.blockExtents, Shape.fixedExtents, List.getElem?_map, List.getElem?_take, List.getElem?_drop,
      Shape.blockRank]
    by_cases hi : i < s.block.length
    · have hget := hall (s.block[i], s.vectorRank + i) (List.mem_zipIdx_iff_le_and_getElem?_sub.mpr
        ⟨Nat.le_add_right _ _, by simp [hi]⟩)
      have hlt : s.vectorRank + i < extents.length := by omega
      simp only [List.getD_eq_getElem?_getD, List.getElem?_eq_getElem hlt, Option.getD_some] at hget
      rw [if_pos hi, List.getElem?_eq_getElem hlt, List.getElem?_eq_getElem hi, hget]
      rfl
    · rw [if_neg hi, List.getElem?_eq_none (by omega)]
      rfl

/-- What is left of the extents are the channels if there is one channel, or if the last extent counts them. -/
theorem drop_eq_channelExtents_iff {extents : List Nat} (hrank : extents.length = s.tensorRank) :
    extents.drop s.rank = s.channelExtents ↔
      (1 < s.element.channels → extents.getD s.rank 0 = s.element.channels) := by
  rw [Shape.channelExtents, Element.channelAxes]
  rw [Shape.tensorRank, Element.channelAxes] at hrank
  by_cases hseveral : 1 < s.element.channels
  · rw [if_pos hseveral] at hrank ⊢
    have hlt : s.rank < extents.length := by omega
    rw [List.drop_eq_getElem_cons hlt, List.drop_eq_nil_of_le (by omega)]
    simp [hseveral, hlt]
  · rw [if_neg hseveral] at hrank ⊢
    rw [List.drop_eq_nil_of_le (by omega)]
    simp [hseveral]

/-- The size of an axis is asked of the tensor. -/
theorem eval_dimSize (htensor : σ.get? (n.part .tensorIn) = some (.tensor t)) {axis : Nat}
    (haxis : axis < t.extents.length) :
    eval m σ (.method (.name n.tensorIn) false "dim_size" [.count axis]) =
      some (.number (t.extents.getD axis 0 : Nat)) := by
  obtain ⟨v, hv, hposition⟩ := Option.bind_eq_some_iff.mp (eval_count m σ axis)
  rw [eval, eval, Names.tensorIn_eq_part, htensor, Option.bind_some, evalAll, hv, evalAll]
  simp [callMethod, hposition, haxis]

/-- The requirements that a fixed container makes, one for each axis of the block. -/
def fixedRequirements (n : Names) (s : Shape) : List Stmt :=
  if s.element.container.isFixed then
    (s.block.zipIdx s.vectorRank).map fun (extent, axis) =>
      requireThat (.binary "==" (n.sizeOf axis) (.count (extent.getD 0)))
        (invalidArgument
          (n.base ++ " must have " ++ extentText extent ++ " elements in dimension " ++ toString axis) [])
  else []

/-- The requirement that several channels make. -/
def channelRequirement (n : Names) (s : Shape) : List Stmt :=
  if 1 < s.element.channels then
    [requireThat (.binary "==" (n.sizeOf s.rank) (.count s.element.channels))
      (invalidArgument
        (n.base ++ " must have " ++ toString s.element.channels ++ " channels in dimension " ++ toString s.rank) [])]
  else []

/-- The declarations of the sizes of the tensor's axes. -/
def readSizes (n : Names) (s : Shape) : List Stmt :=
  (List.range s.tensorRank).map fun axis =>
    n.declareSize axis (.method (.name n.tensorIn) false "dim_size" [.count axis])

/-- The sizes of the tensor are declared first; then they are required. -/
theorem tensorSizes_eq (n : Names) (s : Shape) :
    tensorSizes n s = readSizes n s ++ (fixedRequirements n s ++ channelRequirement n s) := by
  rw [← List.append_assoc]
  rfl

/-- A condition on the requirements on sizes. -/
theorem forall_mem_requirements {P : Stmt → Prop}
    (h : ∀ axis < s.tensorRank, ∀ (count : Nat) (message : String),
      P (requireThat (.binary "==" (n.sizeOf axis) (.count count)) (invalidArgument message []))) :
    ∀ stmt ∈ fixedRequirements n s ++ channelRequirement n s, P stmt := by
  have hrank : s.rank ≤ s.tensorRank := Nat.le_add_right _ _
  unfold fixedRequirements channelRequirement
  rw [List.forall_mem_append]
  constructor
  · split
    · rw [List.forall_mem_map]
      rintro ⟨extent, axis⟩ hx
      have hlt : axis < s.rank := (List.mem_zipIdx hx).2.1
      exact h axis (by omega) _ _
    · exact List.forall_mem_nil _
  · split
    · next hseveral =>
      have hlt : s.rank < s.tensorRank := by
        rw [Shape.tensorRank, Element.channelAxes, if_pos hseveral]
        omega
      exact List.forall_mem_singleton.mpr (h s.rank hlt _ _)
    · exact List.forall_mem_nil _

/-- A condition on the declarations of a tensor's sizes and on the requirements on them. -/
theorem forall_mem_tensorSizes {P : Stmt → Prop}
    (hread : ∀ axis < s.tensorRank,
      P (n.declareSize axis (.method (.name n.tensorIn) false "dim_size" [.count axis])))
    (hrequire : ∀ axis < s.tensorRank, ∀ (count : Nat) (message : String),
      P (requireThat (.binary "==" (n.sizeOf axis) (.count count)) (invalidArgument message []))) :
    ∀ stmt ∈ tensorSizes n s, P stmt := by
  rw [tensorSizes_eq, List.forall_mem_append]
  exact ⟨List.forall_mem_map.mpr fun axis haxis => hread axis (List.mem_range.mp haxis),
    forall_mem_requirements hrequire⟩

/-- The sizes of a fixed container are required. -/
theorem runAll_fixedRequirements (hσ : σ.HoldsSizes n t.extents) (hrank : t.extents.length = s.tensorRank) :
    runAll m (fixedRequirements n s) σ =
      if s.element.container.isFixed = true → s.blockExtents t.extents = s.fixedExtents then .next σ
      else .refused := by
  unfold fixedRequirements
  cases hfixed : s.element.container.isFixed with
  | false => simp [runAll]
  | true =>
    have hrun := runAll_requirements (m := m) (σ := σ) (s.block.zipIdx s.vectorRank)
      (fun b => .binary "==" (n.sizeOf b.2) (.count (b.1.getD 0)))
      (fun b => invalidArgument
        (n.base ++ " must have " ++ extentText b.1 ++ " elements in dimension " ++ toString b.2) [])
      (fun b => t.extents.getD b.2 0 = b.1.getD 0) ?_
    · rw [if_pos rfl]
      refine hrun.trans (if_congr ?_ rfl rfl)
      rw [List.all_eq_true]
      simp only [decide_eq_true_eq]
      rw [← blockExtents_eq_fixedExtents_iff hrank]
      exact ⟨fun h _ => h, fun h => h trivial⟩
    · intro b hb
      have hlt := List.snd_lt_of_mem_zipIdx hb
      refine eval_sizeEquals hσ ?_ _
      rw [hrank, Shape.tensorRank, Shape.rank, Shape.blockRank]
      omega

/-- The number of channels is required if there are several. -/
theorem runAll_channelRequirement (hσ : σ.HoldsSizes n t.extents) (hrank : t.extents.length = s.tensorRank) :
    runAll m (channelRequirement n s) σ =
      if t.extents.drop s.rank = s.channelExtents then .next σ else .refused := by
  have hiff := drop_eq_channelExtents_iff hrank
  unfold channelRequirement
  by_cases hseveral : 1 < s.element.channels
  · have hrun := runAll_requirements (m := m) (σ := σ) [()]
      (fun _ => .binary "==" (n.sizeOf s.rank) (.count s.element.channels))
      (fun _ => invalidArgument
        (n.base ++ " must have " ++ toString s.element.channels ++ " channels in dimension " ++ toString s.rank) [])
      (fun _ => t.extents.getD s.rank 0 = s.element.channels) ?_
    · rw [if_pos hseveral]
      refine hrun.trans (if_congr ?_ rfl rfl)
      rw [hiff]
      simp [hseveral]
    · intro _ _
      refine eval_sizeEquals hσ ?_ _
      rw [hrank, Shape.tensorRank, Element.channelAxes, if_pos hseveral]
      omega
  · rw [if_neg hseveral, if_pos (hiff.mpr fun h => absurd h hseveral), runAll]

/-- The sizes of a tensor are declared as the platform casts them, and the run goes on exactly if a tensor of these
sizes is admitted. -/
theorem runAll_tensorCounts (htensor : σ.get? (n.part .tensorIn) = some (.tensor t)) {counts : List Nat}
    (hcast : List.Forall₂ (fun count extent : Nat => m.toInt32 extent = count) counts t.extents)
    (hrank : counts.length = s.tensorRank) :
    runAll m (tensorSizes n s) σ =
      if s.Admits counts then .next (σ.declareSizes n counts s.tensorRank) else .refused := by
  have hlength := hcast.length_eq
  have hkept : ∀ axis < s.tensorRank, m.toInt32 (t.extents.getD axis 0 : Nat) = (counts.getD (0 + axis) 0 : Nat) := by
    intro axis haxis
    have hlt : axis < counts.length := by omega
    have hlt' : axis < t.extents.length := by omega
    have hget := hcast.get hlt hlt'
    simpa [hlt, hlt'] using hget
  have hread : ∀ axis < s.tensorRank, eval m (σ.declareSizes n counts (0 + axis))
      (.method (.name n.tensorIn) false "dim_size" [.count axis]) = some (.number (t.extents.getD axis 0 : Nat)) := by
    intro axis haxis
    rw [Nat.zero_add]
    refine eval_dimSize ?_ (by omega)
    rw [State.get?_declareSizes _ _ _ _ (by simp), htensor]
  have hdeclared := runAll_declareCounts 0 s.tensorRank _ (fun axis => (t.extents.getD axis 0 : Nat)) hkept hread
  simp only [Nat.zero_add, State.declareSizes] at hdeclared
  have hsizes : (σ.declareSizes n counts s.tensorRank).HoldsSizes n (Tensor.mk counts t.cells).extents := by
    rw [← hrank]
    exact σ.holdsSizes_declareSizes n counts
  rw [tensorSizes_eq, readSizes, runAll_append_of_next m hdeclared, runAll_append,
    runAll_fixedRequirements hsizes hrank]
  by_cases hfixed : s.element.container.isFixed = true → s.blockExtents counts = s.fixedExtents
  · rw [if_pos hfixed]
    refine (runAll_channelRequirement hsizes hrank).trans (if_congr ?_ rfl rfl)
    exact ⟨fun h => ⟨hrank, hfixed, h⟩, fun h => h.channels⟩
  · rw [if_neg hfixed, if_neg fun h => hfixed h.fixed]
    rfl

/-- The sizes of a tensor that the cast keeps are declared, and the run goes on exactly if the tensor is admitted. -/
theorem runAll_tensorSizes (htensor : σ.get? (n.part .tensorIn) = some (.tensor t))
    (hcast : ∀ e ∈ t.extents, m.toInt32 (e : Nat) = (e : Nat)) (hrank : t.extents.length = s.tensorRank) :
    runAll m (tensorSizes n s) σ =
      if s.Admits t.extents then .next (σ.declareSizes n t.extents s.tensorRank) else .refused :=
  runAll_tensorCounts htensor (List.forall₂_same.mpr hcast) hrank

end TensorBridge
