import TensorBridge.Proofs.Conversion.FromTensor

/-!
# Reads of the tensor

Where the conversion of a tensor reads it. The loops, the channels and the vectors stay inside whatever the
extents are, also if some of them are zero; but the probe for the end of a row looks at the zeros of the axes
below, and there is no such position if one of these axes is empty. So a run is stuck exactly if a probe that it
reaches points outside, and otherwise leaves the container.

The sizes are casts of the extents, so a run copies as much of the tensor as they say. Extents whose cast is
negative are left out: a vector or a block of such a size is not constructed but reported as an exception.
-/

namespace TensorBridge

open Conversion

variable {α : Type} {m : Platform α} {n : Names} {s : Shape} {t : Tensor α} {σ : State α}

/-- The part of a tensor that is inside the extents as the platform casts them. -/
def Tensor.counted (m : Platform α) (t : Tensor α) : Tensor α :=
  ⟨t.extents.map fun extent => (m.toInt32 (extent : Nat)).toNat, t.cells⟩

/-- Casts that are not negative are the extents of the part. -/
theorem Tensor.forall₂_counted (hcast : ∀ e ∈ t.extents, 0 ≤ m.toInt32 (e : Nat)) :
    List.Forall₂ (fun count extent : Nat => m.toInt32 extent = count) (t.counted m).extents t.extents := by
  rw [Tensor.counted, List.forall₂_map_left_iff, List.forall₂_same]
  intro e he
  rw [Int.toNat_of_nonneg (hcast e he)]

/-- Casts that are not greater than the extents leave a part of the tensor. -/
theorem Tensor.counted_le (hcast : ∀ e ∈ t.extents, m.toInt32 (e : Nat) ≤ (e : Nat)) :
    List.Forall₂ (· ≤ ·) (t.counted m).extents t.extents := by
  rw [Tensor.counted, List.forall₂_map_left_iff, List.forall₂_same]
  exact fun e he => Int.toNat_le.mpr (hcast e he)

/-- The conversion of a tensor copies the part that the sizes count, exactly if the probes in it stay inside the
tensor. -/
theorem runAll_toValue (hs : s.IsAccepted)
    (hcast : ∀ e ∈ t.extents, 0 ≤ m.toInt32 (e : Nat) ∧ m.toInt32 (e : Nat) ≤ (e : Nat))
    (htensor : σ.get? (n.part .tensorIn) = some (.tensor t))
    (hdata : σ.get? (n.part .dataIn) = some (.values t.mapped)) (hadmits : s.Admits (t.counted m).extents) :
    ∃ τ, runAll m (tensorSizes n s ++ valueBody n s) σ =
        (if s.ProbesInside (t.counted m).extents t.extents then .next τ else .stuck) ∧
      τ.get? (n.part .value) = some (s.containerOf m.isNaN (t.counted m)) := by
  have hsizes := runAll_tensorCounts (s := s) htensor (t.forall₂_counted fun e he => (hcast e he).1) hadmits.length_eq
  have hsupplies : (σ.declareSizes n (t.counted m).extents s.tensorRank).Supplies n (t.counted m) t.extents := by
    constructor
    · rw [State.get?_declareSizes _ _ _ _ (by simp)]
      exact hdata
    · rw [← hadmits.length_eq]
      exact σ.holdsSizes_declareSizes _ _
    · exact t.counted_le fun e he => (hcast e he).2
  rw [if_pos hadmits] at hsizes
  rw [runAll_append_of_next m hsizes]
  exact runAll_valueBody_eq hs hadmits hsupplies

/-- Running the conversion of a tensor with any extents addresses nothing outside of the tensor and of the container,
except by a probe for the end of a row: a run that is not refused is stuck exactly if it reaches a row whose probe
points outside, and leaves the container otherwise. -/
theorem toValue_stuck_iff {tokens : List Value} {s : Shape} (hs : Shape.ofTokens tokens = .ok s) (name : String)
    (m : Platform α) (t : Tensor α) (hrank : t.extents.length = s.tensorRank)
    (hcast : ∀ e ∈ t.extents, 0 ≤ m.toInt32 (e : Nat) ∧ m.toInt32 (e : Nat) ≤ (e : Nat)) (σ : State α)
    (htensor : σ.get? (Names.tensorIn ⟨name⟩) = some (.tensor t))
    (hdata : σ.get? (Names.dataIn ⟨name⟩) = some (.values t.mapped)) :
    ∃ c, (Conversion.build name s .toValue).outcome = .ok c ∧
      (runAll m c.sizes σ = .refused ↔ ¬ s.Admits (t.counted m).extents) ∧
      (runAll m c.sizes σ ≠ .refused →
        (runAll m (c.sizes ++ c.body) σ = .stuck ↔ ¬ s.ProbesInside (t.counted m).extents t.extents) ∧
        (runAll m (c.sizes ++ c.body) σ ≠ .stuck →
          ∃ τ, runAll m (c.sizes ++ c.body) σ = .next τ ∧
            τ.get? (Names.value ⟨name⟩) = some (s.containerOf m.isNaN (t.counted m)))) := by
  have haccepted := Shape.isAccepted_of_ofTokens hs
  have hlength : (t.counted m).extents.length = s.tensorRank := by rw [Tensor.counted, List.length_map, hrank]
  have hsizes := runAll_tensorCounts (s := s) (n := ⟨name⟩) htensor (t.forall₂_counted fun e he => (hcast e he).1)
    hlength
  refine ⟨Conversion.of name s .toValue, rfl, ?_⟩
  change (runAll m (tensorSizes ⟨name⟩ s) σ = .refused ↔ _) ∧ (runAll m (tensorSizes ⟨name⟩ s) σ ≠ .refused →
    (runAll m (tensorSizes ⟨name⟩ s ++ valueBody ⟨name⟩ s) σ = .stuck ↔ _) ∧
    (runAll m (tensorSizes ⟨name⟩ s ++ valueBody ⟨name⟩ s) σ ≠ .stuck →
      ∃ τ, runAll m (tensorSizes ⟨name⟩ s ++ valueBody ⟨name⟩ s) σ = .next τ ∧ _))
  by_cases hadmits : s.Admits (t.counted m).extents
  · rw [if_pos hadmits] at hsizes
    obtain ⟨τ, hrun, hvalue⟩ := runAll_toValue (n := ⟨name⟩) haccepted hcast htensor hdata hadmits
    refine ⟨by simp [hsizes, hadmits], fun _ => ?_⟩
    by_cases hprobes : s.ProbesInside (t.counted m).extents t.extents
    · rw [if_pos hprobes] at hrun
      exact ⟨by simp [hrun, hprobes], fun _ => ⟨τ, hrun, hvalue⟩⟩
    · rw [if_neg hprobes] at hrun
      exact ⟨by simp [hrun, hprobes], fun h => absurd hrun h⟩
  · rw [if_neg hadmits] at hsizes
    exact ⟨by simp [hsizes, hadmits], fun h => absurd hsizes h⟩

/-- The input `x` without a scalar, fetched and mapped. -/
def emptyInput (extents : List Nat) : State (Option Nat) :=
  ⟨[fun y =>
    if y = "x_in" then some (.tensor ⟨extents, fun _ => none⟩)
    else if y = "x_in_data" then some (.values ⟨extents, fun _ => none⟩)
    else none], []⟩

/-- A row without elements is not probed: one vector without vectors inside. -/
theorem toValue_stuck_iff_row_without_elements :
    ∃ c, (Conversion.build "x" ⟨[none, none, none], [], .primitive .double false⟩ .toValue).outcome = .ok c ∧
      ∃ τ, runAll (.wrapping Option.isNone) (c.sizes ++ c.body) (emptyInput [1, 0, 0]) = .next τ ∧
        τ.get? "x_cv" =
          some (.vector (.vector (.vector (.scalar "double"))) [.vector (.vector (.scalar "double")) []]) := by
  have htokens : Shape.ofTokens
      [.string "vector:none", .string "vector:none", .string "vector:none", .string "double"] =
        .ok ⟨[none, none, none], [], .primitive .double false⟩ := by rfl
  obtain ⟨c, hc, hrefused, hrun⟩ := toValue_stuck_iff htokens "x" (.wrapping Option.isNone)
    ⟨[1, 0, 0], fun _ => none⟩ rfl (by decide) (emptyInput [1, 0, 0]) rfl rfl
  obtain ⟨hstuck, hnext⟩ := hrun fun h => hrefused.mp h (by decide)
  obtain ⟨τ, hτ, hvalue⟩ := hnext fun h => hstuck.mp h (by decide)
  exact ⟨c, hc, τ, hτ, hvalue⟩

/-- The probe reads a tensor without scalars: one vector with one vector inside, which would have to be empty. -/
theorem toValue_probes_row_of_empty_vectors :
    Shape.ofTokens [.string "vector:none", .string "vector:none", .string "vector:none", .string "double"] =
        .ok ⟨[none, none, none], [], .primitive .double false⟩ ∧
      ∃ c, (Conversion.build "x" ⟨[none, none, none], [], .primitive .double false⟩ .toValue).outcome = .ok c ∧
        runAll (.wrapping Option.isNone) c.sizes (emptyInput [1, 1, 0]) ≠ .refused ∧
        runAll (.wrapping Option.isNone) (c.sizes ++ c.body) (emptyInput [1, 1, 0]) = .stuck := by
  have htokens : Shape.ofTokens
      [.string "vector:none", .string "vector:none", .string "vector:none", .string "double"] =
        .ok ⟨[none, none, none], [], .primitive .double false⟩ := by rfl
  let t : Tensor (Option Nat) := ⟨[1, 1, 0], fun _ => none⟩
  let m : Platform (Option Nat) := .wrapping Option.isNone
  have hcast : ∀ e ∈ t.extents, 0 ≤ m.toInt32 (e : Nat) ∧ m.toInt32 (e : Nat) ≤ (e : Nat) := by decide
  have hsizes := runAll_tensorCounts (m := m) (n := ⟨"x"⟩) (t := t) (σ := emptyInput [1, 1, 0])
    (s := ⟨[none, none, none], [], .primitive .double false⟩) rfl (t.forall₂_counted fun e he => (hcast e he).1) rfl
  obtain ⟨τ, hrun, _⟩ := runAll_toValue (m := m) (n := ⟨"x"⟩) (t := t) (σ := emptyInput [1, 1, 0])
    (Shape.isAccepted_of_ofTokens htokens) hcast rfl rfl (by decide)
  rw [if_pos (by decide)] at hsizes
  rw [if_neg (by decide)] at hrun
  refine ⟨htokens, Conversion.of "x" _ .toValue, rfl, ?_, hrun⟩
  intro hrefused
  cases hsizes.symm.trans hrefused

end TensorBridge
