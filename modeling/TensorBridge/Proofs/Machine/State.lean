import TensorBridge.Proofs.Machine.Object

/-!
# States

Between two statements the machine has the variables of all blocks that are open, the innermost block first,
and the output tensors allocated so far with what was written into them. A declaration belongs to the
innermost block; an assignment changes the variable that the name means, wherever that was declared.

Two states are compared as such, so the lemmas of this module are equations: they move an assignment past a
declaration or past the opening of a block, and let the end of a block take its declarations away.
-/

namespace TensorBridge

variable {α : Type}

/-- The variables of one block. -/
abbrev Frame (α : Type) : Type := String → Option (Object α)

/-- A frame with one variable set. -/
def Frame.with (f : Frame α) (x : String) (v : Object α) : Frame α := fun y => if y = x then some v else f y

namespace Frame

/-- A variable that was set is found. -/
@[simp] theorem with_self (f : Frame α) (x : String) (v : Object α) : f.with x v x = some v := if_pos rfl

/-- The other variables stay. -/
theorem with_of_ne (f : Frame α) {x y : String} (h : y ≠ x) (v : Object α) : f.with x v y = f y := if_neg h

/-- Of two settings of a variable the second one stays. -/
theorem with_with (f : Frame α) (x : String) (v w : Object α) : (f.with x v).with x w = f.with x w := by
  funext y
  by_cases h : y = x
  · subst h
    rw [with_self, with_self]
  · rw [with_of_ne _ h, with_of_ne _ h, with_of_ne _ h]

/-- Settings of different variables may be exchanged. -/
theorem with_comm (f : Frame α) {x y : String} (h : y ≠ x) (v w : Object α) :
    (f.with x v).with y w = (f.with y w).with x v := by
  funext z
  by_cases hx : z = x
  · subst hx
    rw [with_of_ne _ (Ne.symm h), with_self, with_self]
  · rw [with_of_ne (f.with y w) hx]
    by_cases hy : z = y
    · subst hy
      rw [with_self, with_self]
    · rw [with_of_ne _ hy, with_of_ne _ hx, with_of_ne _ hy]

/-- Setting a variable to what it holds changes nothing. -/
theorem with_eq_self {f : Frame α} {x : String} {v : Object α} (h : f x = some v) : f.with x v = f := by
  funext y
  by_cases hy : y = x
  · subst hy
    rw [with_self, h]
  · rw [with_of_ne _ hy]

end Frame

/-- An output tensor: the number of the output, its extents, and every write with its index, in order. -/
structure Allocation (α : Type) where
  output : Int
  extents : List Nat
  writes : List (List Nat × α)

/-- What a run has done so far. -/
structure State (α : Type) where
  frames : List (Frame α)
  outputs : List (Allocation α)

/-- Changes the variable of the first frame that has it. -/
def replaceIn : List (Frame α) → String → Object α → List (Frame α)
  | [], _, _ => []
  | f :: rest, x, v => if (f x).isSome then f.with x v :: rest else f :: replaceIn rest x v

namespace State

/-- The variable that a name means. -/
def get? (σ : State α) (x : String) : Option (Object α) := σ.frames.findSome? (· x)

/-- Changes the variable that a name means. -/
def set (σ : State α) (x : String) (v : Object α) : State α := { σ with frames := replaceIn σ.frames x v }

/-- Opens a block. -/
def enter (σ : State α) : State α := { σ with frames := (fun _ => none) :: σ.frames }

/-- Closes the innermost block. -/
def leave (σ : State α) : State α := { σ with frames := σ.frames.tail }

/-- Declares a variable of the innermost block. -/
def declare (σ : State α) (x : String) (v : Object α) : State α :=
  match σ.frames with
  | [] => { σ with frames := [Frame.with (fun _ => none) x v] }
  | f :: rest => { σ with frames := f.with x v :: rest }

/-- Allocates an output tensor. -/
def allocate (σ : State α) (output : Int) (extents : List Nat) : State α :=
  { σ with outputs := σ.outputs ++ [⟨output, extents, []⟩] }

/-- Writes into the output tensor that was allocated as the given one. -/
def write (σ : State α) (allocation : Nat) (index : List Nat) (a : α) : State α :=
  { σ with outputs := σ.outputs.modify allocation fun o => { o with writes := o.writes ++ [(index, a)] } }

/-! ## Lookup -/

@[simp] theorem get?_enter (σ : State α) (x : String) : σ.enter.get? x = σ.get? x := rfl

@[simp] theorem get?_allocate (σ : State α) (output : Int) (extents : List Nat) (x : String) :
    (σ.allocate output extents).get? x = σ.get? x := rfl

@[simp] theorem outputs_declare (σ : State α) (x : String) (v : Object α) : (σ.declare x v).outputs = σ.outputs := by
  obtain ⟨frames, outputs⟩ := σ
  cases frames <;> rfl

/-- A declared variable is found, and the others stay. -/
theorem get?_declare (σ : State α) (x y : String) (v : Object α) :
    (σ.declare x v).get? y = if y = x then some v else σ.get? y := by
  obtain ⟨frames, outputs⟩ := σ
  split
  · next h =>
    subst h
    cases frames <;> simp [declare, get?]
  · next h =>
    cases frames <;> simp [declare, get?, List.findSome?_cons, Frame.with_of_ne _ h]

/-- A variable that was set is found, and the others stay. -/
theorem get?_set {σ : State α} {x : String} {u : Object α} (hx : σ.get? x = some u) (y : String) (v : Object α) :
    (σ.set x v).get? y = if y = x then some v else σ.get? y := by
  obtain ⟨frames, outputs⟩ := σ
  change frames.findSome? (· x) = some u at hx
  change (replaceIn frames x v).findSome? (· y) = if y = x then some v else frames.findSome? (· y)
  induction frames with
  | nil => simp at hx
  | cons f rest ih =>
    rw [replaceIn]
    by_cases hf : (f x).isSome
    · rw [if_pos hf]
      split
      · next h =>
        subst h
        simp
      · next h =>
        simp only [List.findSome?_cons, Frame.with_of_ne _ h]
    · rw [if_neg hf]
      rw [Option.not_isSome_iff_eq_none] at hf
      rw [List.findSome?_cons, hf] at hx
      rw [List.findSome?_cons, List.findSome?_cons, ih hx]
      by_cases hyx : y = x
      · subst hyx
        rw [hf]
      · rw [if_neg hyx, if_neg hyx]

/-! ## Assignments among declarations -/

/-- An assignment goes past the declaration of another variable. -/
theorem set_declare {x y : String} (hne : y ≠ x) (σ : State α) (v w : Object α) :
    (σ.declare x v).set y w = (σ.set y w).declare x v := by
  obtain ⟨frames, outputs⟩ := σ
  cases frames with
  | nil => simp [declare, set, replaceIn, Frame.with_of_ne _ hne]
  | cons f rest =>
    by_cases hf : (f y).isSome
    · simp [declare, set, replaceIn, Frame.with_of_ne _ hne, hf, Frame.with_comm _ hne]
    · simp [declare, set, replaceIn, Frame.with_of_ne _ hne, hf]

/-- An assignment to a variable that was just declared might as well declare it so. -/
theorem set_declare_self (σ : State α) (x : String) (v w : Object α) :
    (σ.declare x v).set x w = σ.declare x w := by
  obtain ⟨frames, outputs⟩ := σ
  cases frames <;> simp [declare, set, replaceIn, Frame.with_with]

/-- An assignment goes past the opening of a block. -/
@[simp] theorem set_enter (σ : State α) (y : String) (w : Object α) : σ.enter.set y w = (σ.set y w).enter := rfl

/-- Of two assignments to one variable the second one stays. -/
theorem set_set (σ : State α) (x : String) (v w : Object α) : (σ.set x v).set x w = σ.set x w := by
  obtain ⟨frames, outputs⟩ := σ
  apply congrArg (fun fs => State.mk fs outputs)
  change replaceIn (replaceIn frames x v) x w = replaceIn frames x w
  induction frames with
  | nil => rfl
  | cons f rest ih =>
    rw [replaceIn, replaceIn]
    by_cases hf : (f x).isSome
    · rw [if_pos hf, if_pos hf, replaceIn, if_pos (by simp), Frame.with_with]
    · rw [if_neg hf, if_neg hf, replaceIn, if_neg hf, ih]

/-- Assigning what a variable holds changes nothing. -/
theorem set_self {σ : State α} {x : String} {v : Object α} (hx : σ.get? x = some v) : σ.set x v = σ := by
  obtain ⟨frames, outputs⟩ := σ
  apply congrArg (fun fs => State.mk fs outputs)
  change frames.findSome? (· x) = some v at hx
  change replaceIn frames x v = frames
  induction frames with
  | nil => rfl
  | cons f rest ih =>
    rw [replaceIn]
    cases hf : f x with
    | some u =>
      rw [List.findSome?_cons, hf, Option.some.injEq] at hx
      subst hx
      rw [Option.isSome_some, if_pos rfl, Frame.with_eq_self hf]
    | none =>
      rw [List.findSome?_cons, hf] at hx
      rw [if_neg (by simp), ih hx]

/-- A write into an output tensor goes past a declaration. -/
theorem write_declare (σ : State α) (x : String) (v : Object α) (k : Nat) (index : List Nat) (a : α) :
    (σ.declare x v).write k index a = (σ.write k index a).declare x v := by
  obtain ⟨frames, outputs⟩ := σ
  cases frames <;> rfl

/-- A write into an output tensor goes past the opening of a block. -/
theorem write_enter (σ : State α) (k : Nat) (index : List Nat) (a : α) :
    σ.enter.write k index a = (σ.write k index a).enter := rfl

/-! ## The end of a block -/

@[simp] theorem leave_enter (σ : State α) : σ.enter.leave = σ := rfl

/-- The end of a block takes its declarations away. -/
@[simp] theorem leave_declare (σ : State α) (x : String) (v : Object α) : (σ.declare x v).leave = σ.leave := by
  obtain ⟨frames, outputs⟩ := σ
  cases frames <;> rfl

end State

end TensorBridge
