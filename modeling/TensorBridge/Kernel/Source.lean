import TensorBridge.Cpp.Printer
import TensorBridge.Kernel.Fragment

/-!
# Kernels

A kernel is the C++ source of one operator. It is first put together as data, section by section, from
an operator and the settings of a run; its text is a fixed frame around the sections, each indented to
where it stands.
-/

namespace TensorBridge

/-- Settings of a run: another device, the header that declares the user's function, and further
namespaces. -/
structure RenderOptions where
  device : Option String
  header : Option String
  namespaces : List String
deriving DecidableEq, Repr

/-- The settings that change nothing. -/
def RenderOptions.default : RenderOptions := { device := none, header := none, namespaces := [] }

/-- The source of one operator, section by section. -/
structure Kernel where
  operator : String
  header : String
  namespaces : List String
  device : String
  registrations : List Registration
  shapeInferences : List ShapeInference
  attributes : List (String × AttrType)
  inputs : List (List Stmt)
  call : List Stmt
  outputs : List (List Stmt)

/-- A setting that is given and not empty. -/
def givenText (setting : Option String) (default : String) : String :=
  match setting with
  | none => default
  | some text => if text.isEmpty then default else text

namespace Operator

/-- The arguments of the user's function with their ids: the values of the operands and the members of
the attributes. -/
def arguments (o : Operator) : List (Int × String) :=
  o.operands.map (fun p => (p.id, Names.value ⟨p.name⟩)) ++
    o.sortedAttributes.map (fun a => (a.id, a.name ++ "_"))

/-- The lines of an operator's registration: its inputs, its attributes, its outputs. -/
def registrations (o : Operator) : Except Error (List Registration) := do
  let inputs ← o.inputs.mapM fun p => Registration.ofInput p.inputName p.shape
  let outputs ← o.outputs.mapM fun p => Registration.ofOutput p.name p.shape
  return inputs ++ o.sortedAttributes.map (fun a => .ofAttribute a.name a.type) ++ outputs

/-- The note of a kernel. -/
def kernelRecord (o : Operator) : Record :=
  { level := .debug
    source := .kernels
    message :=
      "rendered kernel " ++ o.name ++ ": " ++ toString o.inputs.length ++ " inputs, " ++
        toString o.outputs.length ++ " outputs, " ++ toString o.attributes.length ++ " attributes" }

/-- The kernel of an operator. -/
def kernel (o : Operator) (options : RenderOptions) : Traced Kernel := do
  let registrations ← Traced.ofExcept o.registrations
  let inputs ← Traced.forEach (fun (p, k) => inputStatements p.name (k : Nat) p.shape) o.inputs.zipIdx
  let outputs ← Traced.forEach (fun (p, k) => outputStatements p.name (k : Nat) p.shape) o.outputs.zipIdx
  Traced.record [o.kernelRecord]
  return {
    operator := o.name
    header := givenText options.header (o.function ++ ".hpp")
    namespaces := options.namespaces
    device := givenText options.device o.device.display
    registrations
    shapeInferences := o.outputs.zipIdx.map fun (p, k) => .ofOutput (k : Nat) p.shape
    attributes := o.sortedAttributes.map fun a => (a.name, a.type)
    inputs
    call := callStatements o.function (o.pureOutputs.map fun p => (p.name, p.shape)) o.arguments
    outputs }

end Operator

/-- A section of a text: pieces on lines of their own, empty ones left out, `level` steps in. -/
def sectionText (pieces : List String) (level : Nat) : String :=
  indent (indentWidth * level) (unlines (pieces.filter (!·.isEmpty)))

namespace Kernel

/-- The source text of a kernel. -/
def text (k : Kernel) : String :=
  unlines [
    "/** This file was generated automatically, please don't modify it unless you know what you are doing. **/",
    "",
    "#include <cmath>",
    "",
    "#include \"tensorflow/core/framework/op_kernel.h\"",
    "#include \"tensorflow/core/framework/shape_inference.h\"",
    "",
    "#include \"opencv2/core.hpp\"",
    "",
    "#include \"" ++ k.header ++ "\"",
    "",
    "using namespace std;",
    "using namespace cv;",
    String.join (k.namespaces.map fun ns => "using namespace " ++ ns ++ ";\n"),
    "namespace tensorflow \x7b",
    "",
    "using shape_inference::InferenceContext;",
    "",
    "REGISTER_OP(\"" ++ k.operator ++ "\")",
    sectionText (k.registrations.map Registration.text) 1,
    "  .SetShapeFn([](InferenceContext* c) \x7b",
    sectionText (k.shapeInferences.map ShapeInference.text) 2,
    "    return Status::OK();",
    "  \x7d);",
    "",
    "class " ++ k.operator ++ "Op : public OpKernel \x7b",
    " public:",
    "  explicit " ++ k.operator ++ "Op(OpKernelConstruction* context) : OpKernel(context) \x7b",
    sectionText (k.attributes.map fun (name, _) => attributeReading name) 2,
    "  \x7d",
    "",
    "  void Compute(OpKernelContext* context) override \x7b",
    sectionText (k.inputs.map stmtText) 2,
    "",
    sectionText [stmtText k.call] 2,
    "",
    sectionText (k.outputs.map stmtText) 2,
    "  \x7d",
    "",
    " private:",
    sectionText (k.attributes.map fun (name, type) => attributeMember name type) 1,
    "\x7d;",
    "",
    "REGISTER_KERNEL_BUILDER(Name(\"" ++ k.operator ++ "\").Device(" ++ k.device ++ "), " ++
      k.operator ++ "Op);",
    "",
    "\x7d  // namespace tensorflow",
    ""]

end Kernel

/-- The source text of an operator's kernel. -/
def Operator.render (o : Operator) (options : RenderOptions) : Traced String := do
  let kernel ← o.kernel options
  return kernel.text

end TensorBridge
