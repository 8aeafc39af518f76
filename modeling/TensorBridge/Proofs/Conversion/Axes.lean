import TensorBridge.Proofs.Conversion.Variables
import TensorBridge.Proofs.Cpp.Sites

/-!
# Loops over the axes of an operand

The loops of a conversion stand one inside the other, over the axes from the outermost on. At any place inside them
the loops over some first axes are open, each up to the size of its axis, and none over a further one.
-/

namespace TensorBridge

/-- A name stays known inside further bindings. -/
theorem mem_names_append {around : List Binding} {text : String} (h : text ∈ around.map Binding.name)
    (more : List Binding) : text ∈ (around ++ more).map Binding.name := by
  rw [List.map_append]
  exact List.mem_append_left _ h

namespace Names

variable (n : Names)

/-- The loop over an axis. -/
def axisBinding (axis : Nat) : Binding := .counted (n.index axis) (n.sizeOf axis)

/-- The loops over `count` axes from `first` on. -/
def axisBindings (first count : Nat) : List Binding := (List.range' first count).map n.axisBinding

/-- The loops over the first axes are open, and none over a further one. -/
def Counts (around : List Binding) (count : Nat) : Prop :=
  ∀ axis : Nat, (around.filter fun b => b.name = n.index axis) = if axis < count then [n.axisBinding axis] else []

variable {n}

/-- The variables of the open loops are known. -/
theorem Counts.mem_names {around : List Binding} {count axis : Nat} (h : n.Counts around count) (haxis : axis < count) :
    n.index axis ∈ around.map Binding.name := by
  have hmem : n.axisBinding axis ∈ around.filter fun b => b.name = n.index axis := by
    rw [h axis, if_pos haxis]
    exact List.mem_singleton_self _
  obtain ⟨hmem, hname⟩ := List.mem_filter.mp hmem
  exact List.mem_map.mpr ⟨_, hmem, of_decide_eq_true hname⟩

/-- A binding of another name leaves the open loops. -/
theorem Counts.append_of_ne {around more : List Binding} {count : Nat} (h : n.Counts around count)
    (hmore : ∀ b ∈ more, ∀ axis : Nat, b.name ≠ n.index axis) : n.Counts (around ++ more) count := by
  intro axis
  rw [List.filter_append, h axis, List.filter_eq_nil_iff.mpr, List.append_nil]
  exact fun b hb => by simpa using hmore b hb axis

/-- The declaration of another part leaves the open loops. -/
theorem Counts.declare {around : List Binding} {count : Nat} (h : n.Counts around count) {p : Part}
    (hp : ∀ axis, p ≠ .index axis) : n.Counts (around ++ [.declared (n.part p)]) count := by
  apply h.append_of_ne
  rintro b hb axis heq
  rw [List.mem_singleton.mp hb, Binding.name, index_eq_part, n.part_inj] at heq
  exact hp axis heq

/-- The declarations of sizes leave the open loops. -/
theorem Counts.declareSizes {around : List Binding} {count : Nat} (h : n.Counts around count) {stmts : List Stmt}
    {axes : List Nat} (hdeclared : declaredIn stmts = axes.map fun axis : Nat => n.size axis) :
    n.Counts (around ++ bindings stmts) count := by
  apply h.append_of_ne
  intro b hb axis heq
  rw [bindings, hdeclared, List.map_map] at hb
  obtain ⟨other, _, rfl⟩ := List.mem_map.mp hb
  rw [Function.comp_apply, Binding.name, size_eq_part, index_eq_part, n.part_inj] at heq
  cases heq

/-- A further loop is opened. -/
theorem Counts.enter {around : List Binding} {count : Nat} (h : n.Counts around count) :
    n.Counts (around ++ [n.axisBinding count]) (count + 1) := by
  intro axis
  rw [List.filter_append, h axis]
  by_cases haxis : axis = count
  · subst haxis
    simp [axisBinding, Binding.name]
  · have hne : n.index count ≠ n.index axis := by
      rw [index_eq_part, index_eq_part]
      exact fun heq => haxis (Part.index.inj (n.part_inj.mp heq)).symm
    have hlt : axis < count + 1 ↔ axis < count := by omega
    simp [axisBinding, Binding.name, hne, hlt]

/-- Further loops are opened. -/
theorem Counts.enterAll {around : List Binding} {first : Nat} (h : n.Counts around first) (count : Nat) :
    n.Counts (around ++ n.axisBindings first count) (first + count) := by
  induction count with
  | zero => simpa [axisBindings] using h
  | succ count ih =>
    rw [axisBindings, List.range'_1_concat, List.map_append, ← List.append_assoc]
    exact ih.enter

end Names

section Nest

variable {P : Site → Prop} {around : List Binding} {n : Names}

/-- A condition on a nest of loops over consecutive axes. -/
theorem everySite_nested (n : Names) (first : Nat) {loops : List Loop} {inner : List Stmt}
    (hloops : ∀ (i : Nat) (l : Loop), loops[i]? = some l → ∃ before, l = n.loopOver (first + i : Nat) before ∧
      declaredIn before = [] ∧ P ⟨around ++ n.axisBindings first i, n.sizeOf (first + i)⟩ ∧
        EverySite P (around ++ n.axisBindings first (i + 1)) before)
    (hinner : EverySite P (around ++ n.axisBindings first loops.length) inner) :
    EverySite P around (nested loops inner) := by
  induction loops generalizing around first with
  | nil => simpa [nested, Names.axisBindings] using hinner
  | cons l rest ih =>
    -- The outermost loop is taken off; the others stand behind its binding, which joins the surroundings.
    obtain ⟨before, rfl, hnone, hbound, hbefore⟩ := hloops 0 l rfl
    have hbindings (i : Nat) : around ++ n.axisBindings first (i + 1) =
        (around ++ [n.axisBinding first]) ++ n.axisBindings (first + 1) i := by
      rw [Names.axisBindings, List.range'_succ, List.map_cons, List.append_assoc]
      rfl
    have hrest : EverySite P (around ++ [n.axisBinding first]) (nested rest inner) := by
      apply ih (first + 1)
      · intro i l hl
        obtain ⟨before, hl, hnone, hbound, hbefore⟩ := hloops (i + 1) l hl
        rw [hbindings] at hbound hbefore
        rw [show first + (i + 1) = first + 1 + i by omega] at hl hbound
        exact ⟨before, hl, hnone, hbound, hbefore⟩
      · rwa [← hbindings]
    rw [nested, Names.loopOver, everySite_cons, Stmt.holdsAt_loop, List.append_nil, everySite_append,
      bindings_eq_nil hnone, List.append_nil]
    refine ⟨⟨?_, ?_, hrest⟩, everySite_nil⟩
    · simpa [Names.axisBindings] using hbound
    · simpa [Names.axisBindings, Names.axisBinding] using hbefore

/-- A condition on a nest of plain loops. -/
theorem everySite_plainLoops {first count : Nat} {inner : List Stmt}
    (hbound : ∀ i < count, P ⟨around ++ n.axisBindings first i, n.sizeOf (first + i)⟩)
    (hinner : EverySite P (around ++ n.axisBindings first count) inner) :
    EverySite P around (nested (n.plainLoops first count) inner) := by
  refine everySite_nested n first ?_ ?_
  · intro i l hl
    rw [Names.plainLoops, List.getElem?_map, Option.map_eq_some_iff] at hl
    obtain ⟨axis, haxis, rfl⟩ := hl
    obtain ⟨hi, rfl⟩ := List.getElem?_eq_some_iff.mp haxis
    rw [List.length_range'] at hi
    refine ⟨[], by simp, rfl, hbound i hi, everySite_nil⟩
  · simpa [Names.plainLoops] using hinner

end Nest

end TensorBridge
