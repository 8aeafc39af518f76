import TensorBridge.Proofs.Machine.Rules
import TensorBridge.Conversion.Basic
import Mathlib.Data.List.Induction

/-!
# The variables of an operand

All identifiers of one operand differ from each other, so that a statement about one variable leaves the
others alone. The loop variables of a nest are the ones of consecutive axes; inside the nest they hold one
index. The main statement runs a nest of plain loops: it does what its inner statements do at every index of
the nest's extents, in order.
-/

namespace TensorBridge

variable {α : Type}

/-! ## Identifiers -/

/-- What an identifier of an operand is for. -/
inductive Part
  | tensorIn
  | tensorOut
  | dataIn
  | dataOut
  | value
  | shape
  | blockShape
  | block
  | index (axis : Nat)
  | size (axis : Nat)
deriving DecidableEq, Repr

namespace Part

/-- The ending of an identifier. -/
def ending : Part → String
  | .tensorIn => "_in"
  | .tensorOut => "_out"
  | .dataIn => "_in_data"
  | .dataOut => "_out_data"
  | .value => "_cv"
  | .shape => "_shape"
  | .blockShape => "_mat_shape"
  | .block => "_mat"
  | .index axis => "_dims_" ++ toString axis
  | .size axis => "_dims_size_" ++ toString axis

/-- Different numbers are printed differently. -/
theorem toDigits_injective {a b : Nat} (h : Nat.toDigits 10 a = Nat.toDigits 10 b) : a = b := by
  have hvalue := congrArg numeralValue h
  rwa [numeralValue_toDigits, numeralValue_toDigits] at hvalue

/-- A printed number does not start with a letter. -/
theorem toDigits_ne_cons {a : Nat} {c : Char} {rest : List Char} (hc : c.isDigit = false) :
    Nat.toDigits 10 a ≠ c :: rest := by
  intro h
  have hmem : c ∈ Nat.toDigits 10 a := by
    rw [h]
    exact List.mem_cons_self
  have hdigit := Nat.isDigit_of_mem_toDigits (by omega) (by omega) hmem
  rw [hc] at hdigit
  contradiction

/-- Different parts have different endings. -/
theorem ending_injective {p q : Part} (h : p.ending = q.ending) : p = q := by
  rw [← String.toList_inj] at h
  cases p <;> cases q
  all_goals simp [ending] at h ⊢
  case index.index a b => exact toDigits_injective h
  case index.size a b => exact toDigits_ne_cons (by decide) h
  case size.index a b => exact toDigits_ne_cons (by decide) h.symm
  case size.size a b => exact toDigits_injective h

end Part

namespace Names

variable (n : Names)

/-- The identifier of an operand for a part. -/
def part (p : Part) : String := n.base ++ p.ending

/-- Different parts have different identifiers. -/
theorem part_inj {p q : Part} : n.part p = n.part q ↔ p = q := by
  constructor
  · intro h
    rw [part, part, ← String.toList_inj, String.toList_append, String.toList_append] at h
    exact Part.ending_injective (String.toList_inj.mp (List.append_cancel_left h))
  · exact congrArg n.part

theorem tensorIn_eq_part : n.tensorIn = n.part .tensorIn := rfl

theorem tensorOut_eq_part : n.tensorOut = n.part .tensorOut := rfl

theorem dataIn_eq_part : n.dataIn = n.part .dataIn := rfl

theorem dataOut_eq_part : n.dataOut = n.part .dataOut := rfl

theorem value_eq_part : n.value = n.part .value := rfl

theorem blockShape_eq_part : n.blockShape = n.part .blockShape := rfl

theorem block_eq_part : n.block = n.part .block := rfl

theorem index_eq_part (axis : Nat) : n.index axis = n.part (.index axis) :=
  String.append_assoc

theorem size_eq_part (axis : Nat) : n.size axis = n.part (.size axis) :=
  String.append_assoc

/-- The map of the input tensor is no function of the language. -/
theorem dataIn_ne_builtin : n.dataIn ≠ "static_cast<int32>" ∧ n.dataIn ≠ "std::isnan" := by
  have hlast (text : String) (h : n.dataIn = text) : text.toList.getLast? = some 'a' := by
    subst h
    simp [dataIn, List.getLast?_append]
  exact ⟨fun h => absurd (hlast _ h) (by decide), fun h => absurd (hlast _ h) (by decide)⟩

end Names

namespace State

/-- The variable of an operand for a part, in a state. -/
theorem get?_declare_part (σ : State α) (n : Names) (p q : Part) (v : Object α) :
    (σ.declare (n.part p) v).get? (n.part q) = if q = p then some v else σ.get? (n.part q) := by
  rw [get?_declare]
  exact if_congr n.part_inj rfl rfl

/-- The variable of an operand for a part, after an assignment. -/
theorem get?_set_part {σ : State α} {n : Names} {p : Part} {u : Object α} (hp : σ.get? (n.part p) = some u) (q : Part)
    (v : Object α) : (σ.set (n.part p) v).get? (n.part q) = if q = p then some v else σ.get? (n.part q) := by
  rw [get?_set hp]
  exact if_congr n.part_inj rfl rfl

/-- An assignment goes past the declaration of another part. -/
theorem set_declare_part (σ : State α) (n : Names) {p q : Part} (hne : q ≠ p) (v w : Object α) :
    (σ.declare (n.part p) v).set (n.part q) w = (σ.set (n.part q) w).declare (n.part p) v :=
  set_declare (fun h => hne (n.part_inj.mp h)) σ v w

/-! ## Loop variables -/

/-- The state inside loops over consecutive axes that stand at an index. -/
def bindAxes (σ : State α) (n : Names) (first : Nat) : List Nat → State α
  | [] => σ
  | i :: rest => bindAxes (σ.enter.declare (n.part (.index first)) (.number i)) n (first + 1) rest

variable (σ : State α) (n : Names)

/-- The innermost loop is entered last. -/
theorem bindAxes_concat (first : Nat) (index : List Nat) (i : Nat) :
    σ.bindAxes n first (index ++ [i]) =
      ((σ.bindAxes n first index).enter.declare (n.part (.index (first + index.length))) (.number i)) := by
  induction index generalizing σ first with
  | nil => rfl
  | cons j rest ih =>
    rw [List.cons_append, bindAxes, bindAxes, ih, List.length_cons]
    congr 3
    omega

/-- Leaving the innermost loop. -/
theorem leave_bindAxes_concat (first : Nat) (index : List Nat) (i : Nat) :
    (σ.bindAxes n first (index ++ [i])).leave = σ.bindAxes n first index := by
  rw [bindAxes_concat, leave_declare, leave_enter]

/-- Loops touch no variable but their own. -/
theorem get?_bindAxes (first : Nat) (index : List Nat) {p : Part}
    (hp : ∀ axis, first ≤ axis → p ≠ .index axis) : (σ.bindAxes n first index).get? (n.part p) = σ.get? (n.part p) := by
  induction index generalizing σ first with
  | nil => rfl
  | cons i rest ih =>
    rw [bindAxes, ih _ _ fun axis haxis => hp axis (by omega), get?_declare_part, if_neg (hp first (by omega)),
      get?_enter]

/-- An assignment goes past the loops around it. -/
theorem set_bindAxes (first : Nat) (index : List Nat) {p : Part} (hp : ∀ axis, p ≠ .index axis) (v : Object α) :
    (σ.bindAxes n first index).set (n.part p) v = (σ.set (n.part p) v).bindAxes n first index := by
  induction index generalizing σ first with
  | nil => rfl
  | cons i rest ih => rw [bindAxes, bindAxes, ih, set_declare_part _ _ (hp first), set_enter]

/-- A write into an output tensor goes past the loops around it. -/
theorem write_bindAxes (first : Nat) (index : List Nat) (k : Nat) (place : List Nat) (a : α) :
    (σ.bindAxes n first index).write k place a = (σ.write k place a).bindAxes n first index := by
  induction index generalizing σ first with
  | nil => rfl
  | cons i rest ih => rw [bindAxes, bindAxes, ih, write_declare, write_enter]

/-- The loop variables from an axis on hold an index. -/
def HoldsIndex (first : Nat) (index : List Nat) : Prop :=
  ∀ axis i : Nat, index[axis]? = some i → σ.get? (n.part (.index (first + axis))) = some (.number i)

variable {σ n}

/-- Loops hold the index at which they stand. -/
theorem holdsIndex_bindAxes (σ : State α) (n : Names) (first : Nat) (index : List Nat) :
    (σ.bindAxes n first index).HoldsIndex n first index := by
  induction index generalizing σ first with
  | nil =>
    intro axis i h
    simp at h
  | cons j rest ih =>
    intro axis i h
    cases axis with
    | zero =>
      rw [List.getElem?_cons_zero, Option.some.injEq] at h
      subst h
      rw [Nat.add_zero, bindAxes, get?_bindAxes _ _ _ _ (by intro axis haxis; simp; omega), get?_declare_part,
        if_pos rfl]
    | succ axis =>
      rw [List.getElem?_cons_succ] at h
      have hrest := ih (σ.enter.declare (n.part (.index first)) (.number j)) (first + 1) axis i h
      rwa [show first + 1 + axis = first + (axis + 1) by omega] at hrest

/-- Loops over later axes keep an index. -/
theorem HoldsIndex.bindAxes {first : Nat} {index : List Nat} (h : σ.HoldsIndex n first index) {later : Nat}
    (hlater : first + index.length ≤ later) (index' : List Nat) :
    (σ.bindAxes n later index').HoldsIndex n first index := by
  intro axis i hi
  obtain ⟨haxis, _⟩ := List.getElem?_eq_some_iff.mp hi
  rw [get?_bindAxes]
  · exact h axis i hi
  · intro other hother heq
    cases heq
    omega

/-- Other declarations keep an index. -/
theorem HoldsIndex.declare {first : Nat} {index : List Nat} (h : σ.HoldsIndex n first index) {p : Part}
    (hp : ∀ axis, p ≠ .index axis) (v : Object α) : (σ.declare (n.part p) v).HoldsIndex n first index := by
  intro axis i hi
  rw [get?_declare_part, if_neg (Ne.symm (hp _))]
  exact h axis i hi

/-- Other assignments keep an index. -/
theorem HoldsIndex.set {first : Nat} {index : List Nat} (h : σ.HoldsIndex n first index) {p : Part}
    (hp : ∀ axis, p ≠ .index axis) {u : Object α} (hu : σ.get? (n.part p) = some u) (v : Object α) :
    (σ.set (n.part p) v).HoldsIndex n first index := by
  intro axis i hi
  rw [get?_set_part hu, if_neg (Ne.symm (hp _))]
  exact h axis i hi

/-- Two stretches of an index make the whole. -/
theorem HoldsIndex.append {first : Nat} {index index' : List Nat} (h : σ.HoldsIndex n first index)
    (h' : σ.HoldsIndex n (first + index.length) index') : σ.HoldsIndex n first (index ++ index') := by
  intro axis i hi
  rcases Nat.lt_or_ge axis index.length with hlt | hge
  · rw [List.getElem?_append_left hlt] at hi
    exact h axis i hi
  · rw [List.getElem?_append_right hge] at hi
    have hi' := h' (axis - index.length) i hi
    rwa [show first + index.length + (axis - index.length) = first + axis by omega] at hi'

/-- The first stretch of an index. -/
theorem HoldsIndex.left {first : Nat} {index index' : List Nat} (h : σ.HoldsIndex n first (index ++ index')) :
    σ.HoldsIndex n first index := by
  intro axis i hi
  obtain ⟨haxis, _⟩ := List.getElem?_eq_some_iff.mp hi
  exact h axis i (by rw [List.getElem?_append_left haxis]; exact hi)

/-- The second stretch of an index. -/
theorem HoldsIndex.right {first : Nat} {index index' : List Nat} (h : σ.HoldsIndex n first (index ++ index')) :
    σ.HoldsIndex n (first + index.length) index' := by
  intro axis i hi
  rw [Nat.add_assoc]
  exact h (index.length + axis) i (by rw [List.getElem?_append_right (by omega), Nat.add_sub_cancel_left]; exact hi)

/-- The loop variables are read as the index they hold. -/
theorem HoldsIndex.evalIndex {first : Nat} {index : List Nat} (h : σ.HoldsIndex n first index) (m : Platform α) :
    evalIndex m σ (n.indices first index.length) = some index := by
  induction index generalizing first with
  | nil => exact evalIndex_nil m σ
  | cons i rest ih =>
    rw [Names.indices, List.length_cons, List.range'_succ, List.map_cons, evalIndex_cons_eq_some]
    refine ⟨i, rest, rfl, eval_name_position m σ ?_, ?_⟩
    · rw [Names.index_eq_part]
      exact h 0 i rfl
    · apply ih
      intro axis j hj
      have hnext := h (axis + 1) j hj
      rwa [show first + (axis + 1) = first + 1 + axis by omega] at hnext

/-- The variables for the sizes of the axes hold some extents. -/
def HoldsSizes (σ : State α) (n : Names) (extents : List Nat) : Prop :=
  ∀ axis extent : Nat, extents[axis]? = some extent → σ.get? (n.part (.size axis)) = some (.number extent)

/-- The sizes of some axes are read as their extents. -/
theorem HoldsSizes.evalIndex {extents : List Nat} (h : σ.HoldsSizes n extents) (m : Platform α) {first count : Nat}
    (hcount : first + count ≤ extents.length) :
    evalIndex m σ (n.sizes first count) = some ((extents.drop first).take count) := by
  have hread := evalIndex_map m σ n.sizeOf (fun axis => extents.getD axis 0) (List.range' first count) ?_
  · rw [Names.sizes, hread]
    refine congrArg some (List.ext_getElem? fun i => ?_)
    rw [List.getElem?_map, List.getElem?_take, List.getElem?_drop]
    by_cases hi : i < count
    · rw [List.getElem?_range' hi, if_pos hi]
      have hlt : first + i < extents.length := by omega
      simp [hlt]
    · rw [List.getElem?_eq_none (by rw [List.length_range']; omega), if_neg hi]
      rfl
  · intro axis haxis
    have hlt : axis < extents.length := by
      have hmem := List.mem_range'_1.mp haxis
      omega
    apply eval_name_position m σ
    rw [Names.size_eq_part]
    exact h axis _ (by simp [hlt])

end State

/-! ## Nests of plain loops -/

/-- A nest with one more loop inside. -/
theorem nested_plainLoops_succ (n : Names) (first count : Nat) (inner : List Stmt) :
    nested (n.plainLoops first (count + 1)) inner =
      nested (n.plainLoops first count) (nested [n.loopOver (first + count) []] inner) := by
  rw [Names.plainLoops, List.range'_1_concat, List.map_append, nested_append]
  rfl

/-- A loop over one axis that holds nothing but its inner statements. -/
theorem runAll_plainLoop (m : Platform α) (n : Names) (axis : Nat) (inner : List Stmt) {σ : State α} {extent : Nat}
    (hsize : σ.get? (n.part (.size axis)) = some (.number extent)) {τ : State α}
    (h : passes (fun i τ => (runAll m inner (τ.enter.declare (n.part (.index axis)) (.number i))).leave)
      (List.range extent) σ = .next τ) : runAll m (nested [n.loopOver axis []] inner) σ = .next τ := by
  have hbound : eval m σ (n.sizeOf axis) = some (.number extent) := by
    rw [Names.sizeOf, eval, Names.size_eq_part, hsize]
  simp only [nested, Names.loopOver, List.nil_append, List.append_nil]
  apply runAll_singleton_of_next m
  rw [run, hbound, Names.index_eq_part]
  exact h

/-- A nest of plain loops does what its inner statements do, at every index of the extents in order. -/
theorem runAll_plainLoops {γ : Type} (m : Platform α) (n : Names) (first : Nat) (extents : List Nat)
    (inner : List Stmt) (embed : γ → State α) (G : List Nat → γ → γ)
    (hsizes : ∀ x, ∀ axis extent : Nat, extents[axis]? = some extent →
      (embed x).get? (n.part (.size (first + axis))) = some (.number extent))
    (hstep : ∀ index, Within index extents → ∀ x,
      runAll m inner ((embed x).bindAxes n first index) = .next ((embed (G index x)).bindAxes n first index))
    (x : γ) :
    runAll m (nested (n.plainLoops first extents.length) inner) (embed x) =
      .next (embed ((indices extents).foldl (fun y index => G index y) x)) := by
  -- The innermost loop is taken off, so that the states outside of it stay in the family.
  induction extents using List.reverseRecOn generalizing inner G with
  | nil => exact hstep [] List.Forall₂.nil x
  | append_singleton extents extent ih =>
    rw [List.length_append, List.length_singleton, nested_plainLoops_succ, indices_append, indices_singleton,
      List.foldl_flatMap]
    simp only [List.map_map, List.foldl_map, Function.comp_apply]
    refine ih _ (fun index y => (List.range extent).foldl (fun y i => G (index ++ [i]) y) y) ?_ ?_
    · intro y axis e he
      obtain ⟨haxis, _⟩ := List.getElem?_eq_some_iff.mp he
      exact hsizes y axis e (by rw [List.getElem?_append_left haxis]; exact he)
    · intro index hindex y
      have hsize : ((embed y).bindAxes n first index).get? (n.part (.size (first + extents.length))) =
          some (.number extent) := by
        rw [State.get?_bindAxes _ _ _ _ (by intro axis _; simp)]
        exact hsizes y extents.length extent (by simp)
      apply runAll_plainLoop m n _ inner hsize
      refine passes_foldl _ (fun y => (embed y).bindAxes n first index) (fun i y => G (index ++ [i]) y) _ ?_ y
      intro i hi z
      have hbody := hstep (index ++ [i]) (hindex.concat (List.mem_range.mp hi)) z
      rw [← hindex.length_eq, ← State.bindAxes_concat, hbody, Outcome.leave, State.leave_bindAxes_concat]

end TensorBridge
