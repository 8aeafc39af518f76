import Mathlib.Algebra.Group.Nat.Defs
import TensorBridge.Proofs.Machine.State

/-!
# Running statements

The meaning of the statements that conversions are made of. An expression has an object as its value, or none
where the machine cannot tell; a statement leads to the next state, leaves the innermost loop, ends the run
because a requirement fails, or is stuck. Whatever C++ leaves undefined is stuck: an index out of range, a
scalar that was never written, an access that does not fit its block, a tensor viewed with a wrong number of
axes.

An access to a block takes one index for each axis of the block, however many these are: `at` for a `Mat`, a call
for a `Matx`, brackets for a `Vec`. `push_back` appends a copy of its argument by value, and `emplace_back` an
empty item; neither changes what the vector held before.
-/

namespace TensorBridge

variable {α : Type}

/-- What the machine is told about its surroundings: which scalars are NaN, and what a cast to `int32` makes
of a whole number. Elements of containers are read only where `mayRead` permits it, so that a run without the
permission that is not stuck is one that reads none. -/
structure Platform (α : Type) where
  isNaN : α → Bool
  toInt32 : Int → Int
  mayRead : Bool

/-- The platform on which `int32` wraps around. -/
def Platform.wrapping (isNaN : α → Bool) : Platform α :=
  { isNaN := isNaN, toInt32 := fun n => n.bmod (2 ^ 32), mayRead := true }

/-- Whole numbers below 2^31 are kept by a wrapping cast. -/
theorem Platform.wrapping_toInt32 (isNaN : α → Bool) {n : Nat} (h : n < 2 ^ 31) :
    (Platform.wrapping isNaN).toInt32 n = n := by
  simp only [Platform.wrapping]
  apply Int.bmod_eq_of_le <;> omega

/-! ## Expressions -/

namespace Object

/-- A number that is not negative. -/
def position? : Object α → Option Nat
  | .number n => if 0 ≤ n then some n.toNat else none
  | _ => none

/-- An array of numbers of which none is negative. -/
def sizes? : Object α → Option (List Nat)
  | .numbers items => items.mapM fun n => if 0 ≤ n then some n.toNat else none
  | _ => none

/-- The item behind a subscript. -/
def item? (m : Platform α) : Object α → Object α → Option (Object α)
  | .vector _ items, i => if m.mayRead then i.position?.bind fun i => items[i]? else none
  | .numbers items, i => i.position?.bind fun i => items[i]?.map .number
  | .channels items, i => i.position?.bind fun i => items[i]?.join.map .value
  | _, _ => none

/-- A field of an object: the extents of a block are its sizes. -/
def member? : Object α → String → Option (Object α)
  | .block b, field => if field = "size" then some (.numbers (b.extents.map Int.ofNat)) else none
  | _, _ => none

/-- The element of a block that an access reads. -/
def element? (m : Platform α) (v : Object α) (container : Container) (index : List Nat) (type : String) :
    Option (Object α) :=
  match v with
  | .block b => if m.mayRead then (b.select? container index type).map b.elementAt else none
  | _ => none

/-- Compares two numbers. -/
def compare? (operator : String) : Object α → Object α → Option (Object α)
  | .number a, .number b => if operator = "==" then some (.truth (decide (a = b))) else none
  | _, _ => none

end Object

/-- Some values as one index. -/
def positions? (values : List (Object α)) : Option (List Nat) := values.mapM Object.position?

/-- The extents of the map that a method of a tensor makes: `tensor` with the right number of axes, or `flat`
for a tensor without axes. -/
def mapExtents? (method : String) (extents : List Nat) : Option (List Nat) :=
  match Template.ofChars method.toList with
  | ⟨name, [_]⟩ => if name = "flat".toList ∧ extents = [] then some (mappedExtents extents) else none
  | ⟨name, [_, axes]⟩ =>
    if name = "tensor".toList ∧ extents ≠ [] ∧ readNumeral? axes = some extents.length then
      some (mappedExtents extents)
    else none
  | _ => none

/-- Calls a method that changes nothing. -/
def callMethod (σ : State α) (v : Object α) (arrow : Bool) (method : String) (args : List (Object α)) :
    Option (Object α) :=
  match v, arrow, args with
  | .tensor t, false, [axis] =>
    if method = "dim_size" then axis.position?.bind fun axis => t.extents[axis]?.map fun n => .number n
    else none
  | .tensor t, false, [] => (mapExtents? method t.extents).map fun _ => .values t.mapped
  | .pointer (some k), true, [] =>
    σ.outputs[k]?.bind fun o => (mapExtents? method o.extents).map fun extents => .cells k extents
  | .vector _ items, false, [] =>
    if method = "size" then some (.number items.length)
    else if method = "empty" then some (.truth items.isEmpty)
    else none
  | _, _, _ => none

/-- Calls a function: a cast, the test for NaN, or the map of an input tensor. -/
def callFunction (m : Platform α) (σ : State α) (function : String) (args : List (Object α)) : Option (Object α) :=
  if function = "static_cast<int32>" then
    match args with
    | [.number n] => some (.number (m.toInt32 n))
    | _ => none
  else if function = "std::isnan" then
    match args with
    | [.value a] => some (.truth (m.isNaN a))
    | _ => none
  else
    match σ.get? function with
    | some (.values t) =>
      (positions? args).bind fun index => if Within index t.extents then some (.value (t.cells index)) else none
    | _ => none

mutual

/-- The value of an expression. -/
def eval (m : Platform α) (σ : State α) : Expr → Option (Object α)
  | .name x => σ.get? x
  | .int n => some (.number n)
  | .call (.name function) args => (evalAll m σ args).bind (callFunction m σ function)
  | .method base arrow method args =>
    (eval m σ base).bind fun v => (evalAll m σ args).bind (callMethod σ v arrow method)
  | .member base field => (eval m σ base).bind (·.member? field)
  | .subscript base index => (eval m σ base).bind fun v => (eval m σ index).bind (v.item? m)
  | .element base container index type =>
    (eval m σ base).bind fun v =>
      ((evalAll m σ index).bind positions?).bind fun index => v.element? m container index type
  | .binary operator left right =>
    (eval m σ left).bind fun a => (eval m σ right).bind (a.compare? operator)
  | _ => none

/-- The values of several expressions. -/
def evalAll (m : Platform α) (σ : State α) : List Expr → Option (List (Object α))
  | [] => some []
  | e :: rest => (eval m σ e).bind fun v => (evalAll m σ rest).map (v :: ·)

end

/-- The indices that some expressions give. -/
def evalIndex (m : Platform α) (σ : State α) (index : List Expr) : Option (List Nat) :=
  (evalAll m σ index).bind positions?

/-- The variable and the path inside it that an expression with subscripts means. -/
def evalPlace (m : Platform α) (σ : State α) : Expr → Option (String × List Nat)
  | .name x => some (x, [])
  | .subscript base index =>
    (evalPlace m σ base).bind fun (x, path) =>
      ((eval m σ index).bind Object.position?).map fun i => (x, path ++ [i])
  | _ => none

/-! ## Statements -/

/-- How a statement ends. -/
inductive Outcome (α : Type)
  | next (σ : State α)
  | stopped (σ : State α)
  | refused
  | stuck

namespace Outcome

/-- Goes on where the statement before leads to the next one. -/
def andThen (o : Outcome α) (f : State α → Outcome α) : Outcome α :=
  match o with
  | .next σ => f σ
  | .stopped σ => .stopped σ
  | .refused => .refused
  | .stuck => .stuck

/-- Closes the block that a statement ran in. -/
def leave : Outcome α → Outcome α
  | .next σ => .next σ.leave
  | .stopped σ => .stopped σ.leave
  | .refused => .refused
  | .stuck => .stuck

/-- The next state, if there is one. -/
def ofOption : Option (State α) → Outcome α
  | some σ => .next σ
  | none => .stuck

end Outcome

/-- The object that a declaration constructs: one of a type, a vector of some length, or a `Mat` of given
extents. -/
def construct (m : Platform α) (σ : State α) (type : String) (args : List Expr) : Option (Object α) :=
  match ObjectType.ofText type, args with
  | some t, [] => some t.initial
  | some (.vector item), [length] =>
    ((eval m σ length).bind Object.position?).map fun n => .vector item (List.replicate n item.initial)
  | some .mat, [rank, extents, .name constant] =>
    ((eval m σ rank).bind Object.position?).bind fun n =>
      ((eval m σ extents).bind Object.sizes?).bind fun sizes =>
        (elementOfConstant? constant).bind fun element =>
          if n ≤ sizes.length then some (.block (.fresh .mat element (sizes.take n))) else none
  | _, _ => none

/-- The object that a variable is declared with. -/
def initialObject (m : Platform α) (σ : State α) (type : String) (args : List Expr) :
    Option Expr → Option (Object α)
  | none => construct m σ type args
  | some (.initializer items) =>
    (evalAll m σ items).bind fun values => (values.mapM Object.position?).map fun ns => .numbers (ns.map Int.ofNat)
  | some (.name x) => if x = "nullptr" then some (.pointer none) else σ.get? x
  | some e => eval m σ e

/-- The channel of an element that an assignment means: the only one, or one that is picked out of several. -/
def ObjectType.pick? (element : ObjectType) : Option Nat → Option Nat
  | none => if element.channels = 1 then some 0 else none
  | some channel => if 1 < element.channels ∧ channel < element.channels then some channel else none

/-- Stores a scalar as one channel of an element of a block. -/
def store (m : Platform α) (σ : State α) (base : Expr) (container : Container) (index : List Expr) (type : String)
    (picked : Option Nat) (a : α) : Option (State α) :=
  (evalPlace m σ base).bind fun (x, path) =>
    (evalIndex m σ index).bind fun index =>
      (σ.get? x).bind fun v =>
        match v.at? path with
        | some (.block b) =>
          (b.select? container index type).bind fun place =>
            (b.element.pick? picked).map fun channel => σ.set x (v.put path (.block (b.put place channel a)))
        | _ => none

/-- Assigns an object: to a cell of an output tensor, or to an element of a block or one of its channels. -/
def assign (m : Platform α) (σ : State α) (target : Expr) (v : Object α) : Option (State α) :=
  match target, v with
  | .call (.name x) args, .value a =>
    (evalIndex m σ args).bind fun index =>
      match σ.get? x with
      | some (.cells k extents) => if Within index extents then some (σ.write k index a) else none
      | _ => none
  | .element base container index type, .value a => store m σ base container index type none a
  | .subscript (.element base container index type) channel, .value a =>
    ((eval m σ channel).bind Object.position?).bind fun channel =>
      store m σ base container index type (some channel) a
  | _, _ => none

/-- Appends to the vector that an expression means. -/
def appendTo (m : Platform α) (σ : State α) (layer : Expr) (added : ObjectType → Option (Object α)) :
    Option (State α) :=
  (evalPlace m σ layer).bind fun (x, path) =>
    (σ.get? x).bind fun v =>
      match v.at? path with
      | some (.vector item items) => (added item).map fun w => σ.set x (v.put path (.vector item (items ++ [w])))
      | _ => none

/-- Runs an expression for what it does: a requirement, an allocation, or the growth of a vector. -/
def execute (m : Platform α) (σ : State α) : Expr → Outcome α
  | .call (.name function) [_, condition, _] =>
    if function = "OP_REQUIRES" then
      match eval m σ condition with
      | some (.truth true) => .next σ
      | some (.truth false) => .refused
      | _ => .stuck
    else .stuck
  | .call (.name function)
      [_, .method _ _ method [output, .call (.name shape) [.initializer extents], .address (.name x)]] =>
    if function = "OP_REQUIRES_OK" ∧ method = "allocate_output" ∧ shape = "TensorShape" then
      match eval m σ output, evalIndex m σ extents with
      | some (.number k), some extents => .next ((σ.allocate k extents).set x (.pointer σ.outputs.length))
      | _, _ => .stuck
    else .stuck
  | .method layer _ method args =>
    match args with
    | [] => if method = "emplace_back" then .ofOption (appendTo m σ layer fun item => some item.initial) else .stuck
    | [e] => if method = "push_back" then .ofOption (appendTo m σ layer fun _ => eval m σ e) else .stuck
    | _ => .stuck
  | _ => .stuck

/-- The passes of a loop, one for each value of its variable. -/
def passes (body : Nat → State α → Outcome α) : List Nat → State α → Outcome α
  | [], σ => .next σ
  | i :: rest, σ =>
    match body i σ with
    | .next τ => passes body rest τ
    | .stopped τ => .next τ
    | .refused => .refused
    | .stuck => .stuck

mutual

/-- Runs one statement. -/
def run (m : Platform α) : Stmt → State α → Outcome α
  | .declare _ _ type x args init, σ => .ofOption ((initialObject m σ type args init).map (σ.declare x))
  | .assign target value, σ => .ofOption ((eval m σ value).bind (assign m σ target))
  | .eval e, σ => execute m σ e
  | .stop, σ => .stopped σ
  | .loop x bound body, σ =>
    match eval m σ bound with
    | some (.number n) =>
      passes (fun i τ => (runAll m body (τ.enter.declare x (.number i))).leave) (List.range n.toNat) σ
    | _ => .stuck
  | .branch condition body orElse, σ =>
    match eval m σ condition with
    | some (.truth true) => (runAll m body σ.enter).leave
    | some (.truth false) => (runAll m orElse σ.enter).leave
    | _ => .stuck
  | .scope body, σ => (runAll m body σ.enter).leave

/-- Runs statements one after the other. -/
def runAll (m : Platform α) : List Stmt → State α → Outcome α
  | [], σ => .next σ
  | s :: rest, σ => (run m s σ).andThen fun τ => runAll m rest τ

end

end TensorBridge
