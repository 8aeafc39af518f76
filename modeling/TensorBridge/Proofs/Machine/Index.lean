import Mathlib.Data.List.Forall2
import Mathlib.Data.List.Nodup

/-!
# Index tuples

The positions of a tensor or of a block, one number for each axis, listed in the order in which a nest of
loops runs through them: the last axis moves fastest.
-/

namespace TensorBridge

/-- An index that points inside the given extents, axis by axis. -/
def Within (index extents : List Nat) : Prop := List.Forall₂ (· < ·) index extents

instance (index extents : List Nat) : Decidable (Within index extents) :=
  inferInstanceAs (Decidable (List.Forall₂ _ _ _))

/-- All indices inside the given extents. -/
def indices : List Nat → List (List Nat)
  | [] => [[]]
  | extent :: rest => (List.range extent).flatMap fun i => (indices rest).map (i :: ·)

/-- An index inside some extents has one number for each of them. -/
theorem Within.length_eq {index extents : List Nat} (h : Within index extents) : index.length = extents.length :=
  List.Forall₂.length_eq h

/-- Extents with an index inside are positive. -/
theorem Within.pos {index extents : List Nat} (h : Within index extents) : ∀ e ∈ extents, 0 < e := by
  induction h with
  | nil => exact List.forall_mem_nil _
  | cons hi _ ih => exact List.forall_mem_cons.mpr ⟨Nat.zero_lt_of_lt hi, ih⟩

/-- Greater extents leave an index inside. -/
theorem Within.mono {index extents extents' : List Nat} (h : Within index extents)
    (hle : List.Forall₂ (· ≤ ·) extents extents') : Within index extents' := by
  induction h generalizing extents' with
  | nil =>
    cases hle
    exact List.Forall₂.nil
  | cons hi _ ih =>
    cases hle with
    | cons hextent hrest => exact List.Forall₂.cons (Nat.lt_of_lt_of_le hi hextent) (ih hrest)

/-- Indices of two groups of axes make one of all axes. -/
theorem Within.append {index extents index' extents' : List Nat} (h : Within index extents)
    (h' : Within index' extents') : Within (index ++ index') (extents ++ extents') := by
  induction h with
  | nil => exact h'
  | cons hi _ ih => exact List.Forall₂.cons hi ih

/-- An index of one more axis. -/
theorem Within.concat {index extents : List Nat} {i extent : Nat} (h : Within index extents) (hi : i < extent) :
    Within (index ++ [i]) (extents ++ [extent]) :=
  h.append (List.Forall₂.cons hi List.Forall₂.nil)

/-- An index along the first axes is continued along the next one. -/
theorem Within.concat_take {extents index : List Nat} {i extent : Nat} (h : Within index (extents.take index.length))
    (hextent : extents[index.length]? = some extent) (hi : i < extent) :
    Within (index ++ [i]) (extents.take (index ++ [i]).length) := by
  obtain ⟨hlt, rfl⟩ := List.getElem?_eq_some_iff.mp hextent
  rw [List.length_append, List.length_singleton, List.take_succ_eq_append_getElem hlt]
  exact h.concat hi

/-- An index of all axes splits where its extents split. -/
theorem within_append {index extents extents' : List Nat} :
    Within index (extents ++ extents') ↔
      Within (index.take extents.length) extents ∧ Within (index.drop extents.length) extents' := by
  constructor
  · intro h
    induction extents generalizing index with
    | nil => exact ⟨List.Forall₂.nil, h⟩
    | cons extent rest ih =>
      cases h with
      | cons hi htail => exact ⟨List.Forall₂.cons hi (ih htail).1, (ih htail).2⟩
  · intro h
    have happend := h.1.append h.2
    rwa [List.take_append_drop] at happend

/-- The zeros point inside positive extents. -/
theorem within_replicate_zero {extents : List Nat} (hpos : ∀ e ∈ extents, 0 < e) :
    Within (List.replicate extents.length 0) extents := by
  induction extents with
  | nil => exact List.Forall₂.nil
  | cons extent rest ih =>
    exact List.Forall₂.cons (hpos extent List.mem_cons_self) (ih fun e he => hpos e (List.mem_cons_of_mem _ he))

/-- The indices are those that point inside. -/
theorem mem_indices {extents index : List Nat} : index ∈ indices extents ↔ Within index extents := by
  induction extents generalizing index with
  | nil =>
    rw [indices, List.mem_singleton]
    exact List.forall₂_nil_right_iff.symm
  | cons extent rest ih =>
    rw [indices, List.mem_flatMap]
    constructor
    · rintro ⟨i, hi, htail⟩
      obtain ⟨tail, hmem, rfl⟩ := List.mem_map.mp htail
      exact List.Forall₂.cons (List.mem_range.mp hi) (ih.mp hmem)
    · intro h
      cases h with
      | cons hi htail => exact ⟨_, List.mem_range.mpr hi, List.mem_map_of_mem (ih.mpr htail)⟩

/-- Every index is listed once. -/
theorem nodup_indices (extents : List Nat) : (indices extents).Nodup := by
  induction extents with
  | nil => exact List.nodup_singleton []
  | cons extent rest ih =>
    rw [indices, List.nodup_flatMap]
    constructor
    · intro i _
      exact ih.map fun _ _ h => (List.cons.inj h).2
    · apply List.nodup_range.imp
      intro i j hij index hi hj
      obtain ⟨_, _, rfl⟩ := List.mem_map.mp hi
      obtain ⟨_, _, heq⟩ := List.mem_map.mp hj
      exact hij (List.cons.inj heq).1.symm

/-- The indices of two groups of axes, the second group moving faster. -/
theorem indices_append (extents extents' : List Nat) :
    indices (extents ++ extents') =
      (indices extents).flatMap fun index => (indices extents').map (index ++ ·) := by
  induction extents with
  | nil => simp [indices]
  | cons extent rest ih =>
    rw [List.cons_append, indices, indices, ih, List.flatMap_assoc]
    apply List.flatMap_congr
    intro i _
    rw [List.map_flatMap, List.flatMap_map]
    apply List.flatMap_congr
    intro index _
    rw [List.map_map]
    rfl

/-- The indices along one axis. -/
theorem indices_singleton (extent : Nat) : indices [extent] = (List.range extent).map fun i => [i] := by
  rw [indices]
  exact List.flatMap_pure_eq_map _ _

end TensorBridge
