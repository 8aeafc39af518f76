import TensorBridge.Proofs.Machine.Index
import TensorBridge.Proofs.Machine.ObjectType

/-!
# Objects

What the variables of a conversion hold while it runs. The scalars of tensors and blocks are left abstract:
a conversion copies them, and apart from that only asks whether one is NaN. A scalar that was never written
is unset, and no statement can read it.

Blocks are read more freely than OpenCV's headers allow: a place in a `Mat` is given by one index for each axis,
however many these are, and a `Matx` has any sizes and any number of axes. A block is a value. What is put into a
vector is a copy with memory of its own, also where OpenCV would share the memory of a `Mat`.

A place inside nested vectors is a path of indices. The lemmas at the end say how the part at a path is found
and replaced.
-/

namespace TensorBridge

variable {α : Type}

/-- A tensor: its extents, and the scalar at each index. -/
structure Tensor (α : Type) where
  extents : List Nat
  cells : List Nat → α

/-- The extents under which the scalars of a tensor are reached: a tensor without axes is a row of one. -/
def mappedExtents : List Nat → List Nat
  | [] => [1]
  | extents => extents

/-- A tensor as its scalars are reached by index. -/
def Tensor.mapped (t : Tensor α) : Tensor α :=
  { extents := mappedExtents t.extents
    cells := fun index => t.cells (if t.extents = [] then [] else index) }

/-- A tensor with axes is reached as it is. -/
theorem Tensor.mapped_eq_self {t : Tensor α} (h : t.extents ≠ []) : t.mapped = t := by
  obtain ⟨extents, cells⟩ := t
  cases extents with
  | nil => contradiction
  | cons extent rest => simp [Tensor.mapped, mappedExtents]

/-- Memory of a `Mat`, a `Matx` or a `Vec`: the scalar at each place and channel that was written. -/
structure Block (α : Type) where
  container : Container
  element : ObjectType
  extents : List Nat
  cells : List Nat → Nat → Option α

/-- The place that an index means. A `Matx` of one row may be indexed by the column alone. -/
def Container.place : Container → List Nat → List Nat → List Nat
  | .matx, [1, _], [column] => [0, column]
  | _, _, index => index

/-- Scalars by place and channel with one more of them written. -/
def putCell (cells : List Nat → Nat → Option α) (place : List Nat) (channel : Nat) (a : α) :
    List Nat → Nat → Option α :=
  fun p c => if p = place ∧ c = channel then some a else cells p c

/-- Scalars after several writes that agree with a function: what the function says where something was
written, and the scalars from before elsewhere. -/
theorem foldl_putCell {γ : Type} (place : γ → List Nat) (channel : γ → Nat) (f : List Nat → Nat → α)
    (items : List γ) (cells : List Nat → Nat → Option α) (p : List Nat) (c : Nat) :
    items.foldl (fun cells x => putCell cells (place x) (channel x) (f (place x) (channel x))) cells p c =
      if ∃ x ∈ items, place x = p ∧ channel x = c then some (f p c) else cells p c := by
  induction items generalizing cells with
  | nil => simp
  | cons x rest ih =>
    rw [List.foldl_cons, ih, putCell]
    by_cases hrest : ∃ y ∈ rest, place y = p ∧ channel y = c
    · obtain ⟨y, hy, hplace⟩ := hrest
      rw [if_pos ⟨y, hy, hplace⟩, if_pos ⟨y, List.mem_cons_of_mem x hy, hplace⟩]
    · rw [if_neg hrest]
      by_cases hfirst : place x = p ∧ channel x = c
      · obtain ⟨rfl, rfl⟩ := hfirst
        rw [if_pos ⟨rfl, rfl⟩, if_pos ⟨x, List.mem_cons_self, rfl, rfl⟩]
      · rw [if_neg fun h => hfirst ⟨h.1.symm, h.2.symm⟩, if_neg]
        rintro ⟨y, hy, hplace⟩
        rcases List.mem_cons.mp hy with rfl | hy
        · exact hfirst hplace
        · exact hrest ⟨y, hy, hplace⟩

namespace Block

/-- A block that was never written. -/
def fresh (container : Container) (element : ObjectType) (extents : List Nat) : Block α :=
  { container := container, element := element, extents := extents, cells := fun _ _ => none }

/-- The place of an access. The access has to be the one of the block's container, and for a `Mat` name the
type of the elements; the place has to lie inside. -/
def select? (b : Block α) (container : Container) (index : List Nat) (type : String) : Option (List Nat) :=
  let place := container.place b.extents index
  if b.container = container ∧ (container = .mat → ObjectType.ofText type = some b.element) ∧
      Within place b.extents then
    some place
  else none

/-- Writes one channel of the element at a place. -/
def put (b : Block α) (place : List Nat) (channel : Nat) (a : α) : Block α :=
  { b with cells := putCell b.cells place channel a }

end Block

/-- What a variable holds. The texts of types are read once, where an object is made. -/
inductive Object (α : Type)
  | unset
  | number (n : Int)
  | truth (holds : Bool)
  | value (a : α)
  | numbers (items : List Int)
  | channels (items : List (Option α))
  | vector (item : ObjectType) (items : List (Object α))
  | block (b : Block α)
  | tensor (t : Tensor α)
  | values (t : Tensor α)
  | pointer (output : Option Nat)
  | cells (output : Nat) (extents : List Nat)

/-- The object that a declaration without a value makes. -/
def ObjectType.initial : ObjectType → Object α
  | .vector item => .vector item []
  | .fixed container type sizes => .block (.fresh container (.scalar type) sizes)
  | .scalar _ => .unset
  | .mat => .unset

/-- One element of a block: a scalar, or the channels of a `Vec`. -/
def Block.elementAt (b : Block α) (place : List Nat) : Object α :=
  if b.element.channels = 1 then
    match b.cells place 0 with
    | some a => .value a
    | none => .unset
  else .channels ((List.range b.element.channels).map (b.cells place))

/-- Changes the item behind others. -/
theorem modify_append_cons {β : Type} (items rest : List β) (x : β) (f : β → β) :
    (items ++ x :: rest).modify items.length f = items ++ f x :: rest := by
  rw [List.modify_eq_take_cons_drop (by simp)]
  simp

namespace Object

/-- The part of a nested vector at a path. -/
def at? : Object α → List Nat → Option (Object α)
  | v, [] => some v
  | .vector _ items, i :: path =>
    match items[i]? with
    | some item => item.at? path
    | none => none
  | _, _ :: _ => none

/-- A nested vector with the part at a path replaced. -/
def put : Object α → List Nat → Object α → Object α
  | _, [], w => w
  | .vector item items, i :: path, w => .vector item (items.modify i fun x => x.put path w)
  | v, _ :: _, _ => v

/-- The whole is the part at the empty path. -/
@[simp] theorem at?_nil (v : Object α) : v.at? [] = some v := by
  cases v <;> rfl

/-- The whole is replaced at the empty path. -/
@[simp] theorem put_nil (v w : Object α) : v.put [] w = w := by
  cases v <;> rfl

/-- The first index of a path leads to an item. -/
theorem at?_vector_cons (item : ObjectType) (items : List (Object α)) (i : Nat) (path : List Nat) :
    (vector item items).at? (i :: path) = items[i]?.bind (·.at? path) := by
  rw [at?]
  cases items[i]? <;> rfl

/-- A path that leads somewhere starts in a vector. -/
theorem exists_vector_of_at?_cons {v x : Object α} {i : Nat} {path : List Nat} (h : v.at? (i :: path) = some x) :
    ∃ item items part, v = .vector item items ∧ items[i]? = some part ∧ part.at? path = some x := by
  cases v with
  | vector item items =>
    rw [at?_vector_cons, Option.bind_eq_some_iff] at h
    obtain ⟨part, hpart, hx⟩ := h
    exact ⟨item, items, part, rfl, hpart, hx⟩
  | _ => simp [at?] at h

/-- A path is followed in two stretches. -/
theorem at?_append (v : Object α) (p q : List Nat) : v.at? (p ++ q) = (v.at? p).bind (·.at? q) := by
  induction p generalizing v with
  | nil => simp
  | cons i p ih =>
    cases v with
    | vector item items =>
      rw [List.cons_append, at?_vector_cons, at?_vector_cons, Option.bind_assoc]
      exact congrArg _ (funext ih)
    | _ => rfl

/-- The part that was put at a path is found there. -/
theorem at?_put {v x : Object α} {p : List Nat} (h : v.at? p = some x) (w : Object α) : (v.put p w).at? p = some w := by
  induction p generalizing v with
  | nil => simp
  | cons i p ih =>
    obtain ⟨item, items, part, rfl, hpart, hx⟩ := exists_vector_of_at?_cons h
    rw [put, at?_vector_cons, List.getElem?_modify_eq, hpart]
    exact ih hx

/-- Of two parts put at one path the second one stays. -/
theorem put_put (v w w' : Object α) (p : List Nat) : (v.put p w).put p w' = v.put p w' := by
  induction p generalizing v with
  | nil => simp
  | cons i p ih =>
    cases v with
    | vector item items =>
      rw [put, put, put, List.modify_modify_eq]
      exact congrArg (fun f => vector item (items.modify i f)) (funext ih)
    | _ => rfl

/-- Putting back the part that stands at a path changes nothing. -/
theorem put_self {v x : Object α} {p : List Nat} (h : v.at? p = some x) : v.put p x = v := by
  induction p generalizing v with
  | nil => simpa using h.symm
  | cons i p ih =>
    obtain ⟨item, items, part, rfl, hpart, hx⟩ := exists_vector_of_at?_cons h
    have hitems : (items.modify i fun y => y.put p x) = items := by
      refine List.ext_getElem? fun j => ?_
      rw [List.getElem?_modify]
      split
      · next hij =>
        subst hij
        rw [hpart]
        exact congrArg some (ih hx)
      · simp
    rw [put, hitems]

/-- A part is replaced inside the part that a path leads to. -/
theorem put_append {v x : Object α} {p : List Nat} (h : v.at? p = some x) (q : List Nat) (w : Object α) :
    v.put (p ++ q) w = v.put p (x.put q w) := by
  induction p generalizing v with
  | nil =>
    rw [at?_nil, Option.some.injEq] at h
    subst h
    simp
  | cons i p ih =>
    obtain ⟨item, items, part, rfl, hpart, hx⟩ := exists_vector_of_at?_cons h
    rw [List.cons_append, put, put]
    refine congrArg _ (List.ext_getElem? fun j => ?_)
    rw [List.getElem?_modify, List.getElem?_modify]
    split
    · next hij =>
      subst hij
      rw [hpart]
      exact congrArg some (ih hx)
    · rfl

/-- The item behind others is replaced. -/
theorem put_vector_length (item : ObjectType) (items rest : List (Object α)) (x w : Object α) (path : List Nat) :
    (vector item (items ++ x :: rest)).put (items.length :: path) w =
      .vector item (items ++ x.put path w :: rest) := by
  rw [put, modify_append_cons]

/-- The item behind others is found. -/
theorem at?_vector_length (item : ObjectType) (items rest : List (Object α)) (x : Object α) (path : List Nat) :
    (vector item (items ++ x :: rest)).at? (items.length :: path) = x.at? path := by
  rw [at?_vector_cons]
  simp

end Object

end TensorBridge
