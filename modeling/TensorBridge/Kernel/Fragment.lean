import TensorBridge.Conversion.Build
import TensorBridge.Operator.Basic

/-!
# Parts of a kernel

The pieces of C++ that a kernel has for each operand and attribute: its registration, the inference of
an output's shape, the reading of an attribute, and the statements that fetch an input, call the user's
function and allocate an output.
-/

namespace TensorBridge

/-! ## Registration -/

/-- One line of an operator's registration; its name is in snake case. -/
inductive Registration
  | input (name dataType : String)
  | attr (name : String) (type : AttrType)
  | output (name dataType : String)
deriving DecidableEq, Repr

namespace Registration

/-- The text of a registration. -/
def text : Registration → String
  | .input name dataType => ".Input(\"" ++ name ++ ": " ++ dataType ++ "\")"
  | .attr name type => ".Attr(\"" ++ name ++ ": " ++ type.text ++ "\")"
  | .output name dataType => ".Output(\"" ++ name ++ ": " ++ dataType ++ "\")"

/-- The registration of an input tensor. -/
def ofInput (name : String) (s : Shape) : Except Error Registration :=
  s.element.tensorType.map (.input (snakeCase name))

/-- The registration of an output tensor. -/
def ofOutput (name : String) (s : Shape) : Except Error Registration :=
  s.element.tensorType.map (.output (snakeCase name))

/-- The registration of an attribute. -/
def ofAttribute (name : String) (type : AttrType) : Registration := .attr (snakeCase name) type

end Registration

/-! ## Shape inference -/

/-- The name of an extent that is not known. -/
def unknownExtent : String := "InferenceContext::kUnknownDim"

/-- The extents that are inferred for a tensor: those of the axes, and the channels if there are
several. -/
def Shape.inferredExtents (s : Shape) : List Extent :=
  s.extents ++ List.replicate s.element.channelAxes (some s.element.channels)

/-- An extent in a call of the inference context. -/
def inferredText : Extent → String
  | none => unknownExtent
  | some n => toString n

/-- The call that makes a shape of the given extents. -/
def inferredShape : List Extent → String
  | [] => "c->Scalar()"
  | [a] => "c->Vector(" ++ inferredText a ++ ")"
  | [a, b] => "c->Matrix(" ++ inferredText a ++ ", " ++ inferredText b ++ ")"
  | extents => "c->MakeShape(\x7b " ++ commaList (extents.map inferredText) ++ " \x7d)"

/-- The inference of one output's shape: the extents that are set for it. -/
structure ShapeInference where
  output : Int
  extents : List Extent
deriving DecidableEq, Repr

namespace ShapeInference

/-- The inference of the output at an index. -/
def ofOutput (index : Int) (s : Shape) : ShapeInference := ⟨index, s.inferredExtents⟩

/-- The statement that sets the shape of an output. -/
def text (i : ShapeInference) : String :=
  "c->set_output(" ++ toString i.output ++ ", " ++ inferredShape i.extents ++ ");"

end ShapeInference

/-! ## Attributes -/

/-- The statement that reads an attribute into its member. -/
def attributeReading (name : String) : String :=
  "OP_REQUIRES_OK(context, context->GetAttr(\"" ++ snakeCase name ++ "\", &" ++ name ++ "_));"

/-- The declaration of an attribute's member. -/
def attributeMember (name : String) (type : AttrType) : String := type.kind.name ++ " " ++ name ++ "_;"

/-! ## The computation -/

/-- The values of a tensor by index; a tensor without axes is taken as a row of one value. -/
def tensorValues (tensor : String) (arrow : Bool) (s : Shape) : Except Error Expr :=
  s.element.tensorScalar.map fun scalar =>
    .method (.name tensor) arrow
      (if s.tensorRank = 0 then "flat<" ++ scalar ++ ">"
        else "tensor<" ++ scalar ++ ", " ++ toString s.tensorRank ++ ">") []

/-- Fetches an input tensor. -/
def fetchTensor (n : Names) (index : Int) : Stmt :=
  .constant "Tensor&" n.tensorIn (.method (.name "context") true "input" [.int index])

/-- Requires that an input tensor has as many axes as its shape says. -/
def requireRank (n : Names) (s : Shape) : Stmt :=
  let tensor := Expr.name n.tensorIn
  requireThat (.binary "==" (.method tensor false "dims" []) (.count s.tensorRank))
    (invalidArgument (n.base ++ " must be " ++ toString s.tensorRank ++ "-dimensional")
      [.method (.method tensor false "shape" []) false "DebugString" []])

/-- The statements that fetch an input, check its rank and convert it. -/
def inputStatements (name : String) (index : Int) (s : Shape) : Traced (List Stmt) := do
  let n : Names := ⟨name⟩
  let conversion ← Conversion.build name s .toValue
  let values ← Traced.ofExcept (tensorValues n.tensorIn false s)
  return [fetchTensor n index, requireRank n s, .define "auto" n.dataIn values] ++
    conversion.sizes ++ conversion.body

/-- Allocates an output tensor. -/
def allocateTensor (index : Int) (tensor : String) (extents : List Expr) : Stmt :=
  .eval (.callNamed "OP_REQUIRES_OK"
    [.name "context",
      .method (.name "context") true "allocate_output"
        [.int index, .callNamed "TensorShape" [.initializer extents], .address (.name tensor)]])

/-- The statements that allocate an output and convert it. They lie in a block of their own, so that an
operand that is also an input can declare its sizes again; where the value may be empty, the block is
one branch of the test. -/
def outputStatements (name : String) (index : Int) (s : Shape) : Traced (List Stmt) := do
  let n : Names := ⟨name⟩
  let conversion ← Conversion.build name s .toTensor
  let values ← Traced.ofExcept (tensorValues n.tensorOut true s)
  let fill := conversion.sizes ++
    [allocateTensor index n.tensorOut conversion.extents, .define "auto" n.dataOut values] ++ conversion.body
  let copy :=
    match conversion.emptyTest with
    | none => Stmt.scope fill
    | some test => .branch test [allocateTensor index n.tensorOut conversion.emptyExtents] fill
  return [.define "Tensor*" n.tensorOut (.name "nullptr"), copy]

/-- The statements that declare the values of the pure outputs and call the user's function; its
arguments stand in the order of their ids. -/
def callStatements (function : String) (outputs : List (String × Shape))
    (arguments : List (Int × String)) : List Stmt :=
  outputs.map (fun (name, s) => .plain s.declaredType (Names.value ⟨name⟩)) ++
    [.eval (.callNamed function ((sortBy Prod.fst arguments).map fun (_, text) => .name text))]

end TensorBridge
