import TensorBridge.Shape.Element

/-!
# C++ statements

Trees for the part of C++ that a kernel's conversions are made of. Expressions fill one line; a
statement may hold a block of others. A counting loop runs its variable from zero to below its bound.
-/

namespace TensorBridge

/-- An expression. A name is an identifier, or any text that needs no structure. -/
inductive Expr
  | name (text : String)
  | int (value : Int)
  | float (value : Double)
  | string (value : String)
  | call (function : Expr) (args : List Expr)
  | method (base : Expr) (arrow : Bool) (method : String) (args : List Expr)
  | member (base : Expr) (field : String)
  | subscript (base index : Expr)
  | element (base : Expr) (container : Container) (index : List Expr) (valueType : String)
  | binary (operator : String) (left right : Expr)
  | address (target : Expr)
  | initializer (items : List Expr)

/-- A statement. A declaration may be constant, an array, constructed from arguments, or initialized. -/
inductive Stmt
  | declare (constant array : Bool) (type name : String) (args : List Expr) (init : Option Expr)
  | assign (target value : Expr)
  | eval (expr : Expr)
  | stop
  | loop (var : String) (bound : Expr) (body : List Stmt)
  | branch (cond : Expr) (body orElse : List Stmt)
  | scope (body : List Stmt)

namespace Expr

/-- A whole number that counts something. -/
def count (n : Nat) : Expr := .int n

/-- A call of a function by its name. -/
def callNamed (function : String) (args : List Expr) : Expr := .call (.name function) args

/-- A chain of subscripts, the first one innermost; without any it is the base itself. -/
def subscripts (base : Expr) (index : List Expr) : Expr := index.foldl .subscript base

end Expr

namespace Stmt

/-- A declaration without a value. -/
def plain (type name : String) : Stmt := .declare false false type name [] none

/-- A declaration with a value. -/
def define (type name : String) (value : Expr) : Stmt := .declare false false type name [] (some value)

/-- A declaration of a constant. -/
def constant (type name : String) (value : Expr) : Stmt := .declare true false type name [] (some value)

/-- A declaration of a constant array. -/
def constantArray (type name : String) (items : List Expr) : Stmt :=
  .declare true true type name [] (some (.initializer items))

/-- A declaration that calls a constructor. -/
def construct (type name : String) (args : List Expr) : Stmt := .declare false false type name args none

end Stmt

/-- One loop of a nest, with the statements before and after the inner loop. -/
structure Loop where
  var : String
  bound : Expr
  before : List Stmt
  after : List Stmt

/-- Statements inside a nest of loops, the outermost first. -/
def nested : List Loop → List Stmt → List Stmt
  | [], inner => inner
  | l :: rest, inner => [.loop l.var l.bound (l.before ++ nested rest inner ++ l.after)]

/-- Loops inside loops make one nest. -/
theorem nested_append (outer inner : List Loop) (body : List Stmt) :
    nested (outer ++ inner) body = nested outer (nested inner body) := by
  induction outer with
  | nil => rfl
  | cons l rest ih => simp [nested, ih]

end TensorBridge
