import TensorBridge.Proofs.Kernel.Statements
import TensorBridge.Proofs.Operator.Distinct

/-!
# Positions of the operands

The sections of a kernel number its inputs and its outputs on their own: by the order of the registrations, by the
order of the conversions, and by the numbers in the calls that fetch, allocate and infer. All of them follow the ids,
and so they agree. Registrations are the entries that are built, one for an operand or an attribute; what the default of
an attribute carries into the text of its entry, such as a line that looks like another registration, is not looked at.
Likewise the calls of a section are told apart by where they come from, not by the names of the called functions.
-/

namespace TensorBridge

/-- Whether a line registers an input. -/
def Registration.isInput : Registration → Bool
  | .input _ _ => true
  | _ => false

/-- Whether a line registers an output. -/
def Registration.isOutput : Registration → Bool
  | .output _ _ => true
  | _ => false

/-- Statements that convert the input at a position: they fetch this input once, into the operand's own variable, and
call no function but helpers. A helper is one by its place in the conversion; that the user's function may have the name
of one, such as x_in_data, makes its call no call of a helper. -/
structure ConvertsInput (p : Operand) (position : Int) (stmts : List Stmt) : Prop where
  conversion : (inputStatements p.name position p.shape).outcome = .ok stmts
  fetched : methodCalls "input" stmts = [(some (p.name ++ "_in"), [.int position])]
  allocated : methodCalls "allocate_output" stmts = []
  called : ∀ call ∈ functionCalls stmts, ∃ helper ∈ Names.helpers ⟨p.name⟩, call.1 = .name helper

/-- Statements that convert the output at a position: they allocate this output and no other, into the operand's own
variable, and call no function but helpers. -/
structure ConvertsOutput (p : Operand) (position : Int) (stmts : List Stmt) : Prop where
  conversion : (outputStatements p.name position p.shape).outcome = .ok stmts
  fetched : methodCalls "input" stmts = []
  allocates : methodCalls "allocate_output" stmts ≠ []
  allocated : ∀ call ∈ methodCalls "allocate_output" stmts, ∃ extents,
    call.2 = [.int position, .callNamed "TensorShape" [.initializer extents], .address (.name (p.name ++ "_out"))]
  called : ∀ call ∈ functionCalls stmts, ∃ helper ∈ Names.helpers ⟨p.name⟩, call.1 = .name helper

/-- A kernel whose sections agree on the positions of an operator's operands: on those of the inputs, of the outputs,
and of the arguments of the user's function. The function is called once, by the call that stands between the
conversions; a function with the name of a helper of an operand, such as x_out_data, has other calls of this name beside
it in the conversions, and these are calls of the helper. -/
structure Kernel.AgreesOn (k : Kernel) (o : Operator) (ins outs : List Operand) (args : List (Int × String)) :
    Prop where
  ins_perm : ins.Perm (o.operands.filter (·.role.isInput))
  ins_strict : ins.Pairwise fun p q => p.id < q.id
  outs_perm : outs.Perm (o.operands.filter (·.role.isOutput))
  outs_strict : outs.Pairwise fun p q => p.id < q.id
  args_perm : args.Perm
    (o.operands.map (fun p => (p.id, p.name ++ "_cv")) ++ o.attributes.map (fun a => (a.id, a.name ++ "_")))
  args_strict : args.Pairwise fun a b => a.1 < b.1
  inputs_registered : List.Forall₂ (fun p line => Registration.ofInput p.inputName p.shape = .ok line) ins
    (k.registrations.filter Registration.isInput)
  outputs_registered : List.Forall₂ (fun p line => Registration.ofOutput p.name p.shape = .ok line) outs
    (k.registrations.filter Registration.isOutput)
  inputs_converted : List.Forall₂ (fun (p, position) stmts => ConvertsInput p (position : Nat) stmts) ins.zipIdx
    k.inputs
  outputs_converted : List.Forall₂ (fun (p, position) stmts => ConvertsOutput p (position : Nat) stmts) outs.zipIdx
    k.outputs
  shapes_inferred : k.shapeInferences =
    outs.zipIdx.map fun (p, position) => ⟨(position : Nat), p.shape.inferredExtents⟩
  called_once : functionCalls k.call = [(.name o.function, args.map fun a => .name a.2)]
  call_alone : methodCalls "input" k.call = [] ∧ methodCalls "allocate_output" k.call = []

namespace Registration

/-- The registration of an input is one of an input. -/
theorem isInput_of_ofInput {name : String} {s : Shape} {line : Registration} (h : ofInput name s = .ok line) :
    line.isInput = true ∧ line.isOutput = false := by
  obtain ⟨type, _, rfl⟩ := except_map_eq_ok.mp h
  exact ⟨rfl, rfl⟩

/-- The registration of an output is one of an output. -/
theorem isOutput_of_ofOutput {name : String} {s : Shape} {line : Registration} (h : ofOutput name s = .ok line) :
    line.isOutput = true ∧ line.isInput = false := by
  obtain ⟨type, _, rfl⟩ := except_map_eq_ok.mp h
  exact ⟨rfl, rfl⟩

/-- Lines that are made one by one are all kept or all dropped. -/
theorem filter_of_forall₂ {R : Operand → Registration → Prop} {keep : Registration → Bool} {value : Bool}
    {ps : List Operand} {lines : List Registration} (h : List.Forall₂ R ps lines)
    (hkeep : ∀ p line, R p line → keep line = value) : lines.filter keep = if value then lines else [] := by
  induction h with
  | nil => cases value <;> rfl
  | cons hline _ ih =>
    rw [List.filter_cons, hkeep _ _ hline, ih]
    cases value <;> rfl

end Registration

namespace Operator

variable {o : Operator}

/-- The lines of a registration: those of the inputs, of the attributes and of the outputs. -/
theorem registrations_eq_ok {lines : List Registration} (h : o.registrations = .ok lines) :
    ∃ inputs outputs,
      List.Forall₂ (fun p line => Registration.ofInput p.inputName p.shape = .ok line) o.inputs inputs ∧
      List.Forall₂ (fun p line => Registration.ofOutput p.name p.shape = .ok line) o.outputs outputs ∧
      lines = inputs ++ o.sortedAttributes.map (fun a => .ofAttribute a.name a.type) ++ outputs := by
  obtain ⟨inputs, hinputs, h⟩ := except_bind_eq_ok.mp h
  obtain ⟨outputs, houtputs, h⟩ := except_bind_eq_ok.mp h
  cases h
  exact ⟨inputs, outputs, except_mapM_eq_ok.mp hinputs, except_mapM_eq_ok.mp houtputs, rfl⟩

/-- The inputs and the outputs are registered in their orders. -/
theorem registrations_filter {lines : List Registration} (h : o.registrations = .ok lines) :
    List.Forall₂ (fun p line => Registration.ofInput p.inputName p.shape = .ok line) o.inputs
        (lines.filter Registration.isInput) ∧
      List.Forall₂ (fun p line => Registration.ofOutput p.name p.shape = .ok line) o.outputs
        (lines.filter Registration.isOutput) := by
  obtain ⟨inputs, outputs, hinputs, houtputs, rfl⟩ := registrations_eq_ok h
  have hattributes {keep : Registration → Bool} (hkeep : ∀ name type, keep (.ofAttribute name type) = false) :
      (o.sortedAttributes.map fun a => Registration.ofAttribute a.name a.type).filter keep = [] := by
    rw [List.filter_map, List.map_eq_nil_iff, List.filter_eq_nil_iff]
    exact fun a _ => Bool.eq_false_iff.mp (hkeep a.name a.type)
  rw [List.filter_append, List.filter_append, List.filter_append, List.filter_append, hattributes fun _ _ => rfl,
    hattributes fun _ _ => rfl,
    Registration.filter_of_forall₂ hinputs fun _ _ hline => (Registration.isInput_of_ofInput hline).1,
    Registration.filter_of_forall₂ houtputs fun _ _ hline => (Registration.isOutput_of_ofOutput hline).2,
    Registration.filter_of_forall₂ hinputs fun _ _ hline => (Registration.isInput_of_ofInput hline).2,
    Registration.filter_of_forall₂ houtputs fun _ _ hline => (Registration.isOutput_of_ofOutput hline).1]
  simpa using ⟨hinputs, houtputs⟩

/-- The statements for an input convert it. -/
theorem convertsInput {p : Operand} {position : Int} {stmts : List Stmt}
    (h : (inputStatements p.name position p.shape).outcome = .ok stmts) : ConvertsInput p position stmts := by
  obtain ⟨hfetched, hallocated⟩ := methodCalls_inputStatements h
  exact ⟨h, hfetched, hallocated, functionCalls_inputStatements h⟩

/-- The statements for an output convert it. -/
theorem convertsOutput {p : Operand} {position : Int} {stmts : List Stmt}
    (h : (outputStatements p.name position p.shape).outcome = .ok stmts) : ConvertsOutput p position stmts := by
  obtain ⟨hallocated, hfetched⟩ := methodCalls_outputStatements h
  refine ⟨h, hfetched, ?_, ?_, functionCalls_outputStatements h⟩
  · rw [hallocated, allocatedWith]
    split
    · exact List.cons_ne_nil _ _
    · exact List.cons_ne_nil _ _
  · intro call hcall
    rw [hallocated] at hcall
    obtain ⟨extents, _, rfl⟩ := List.mem_map.mp hcall
    exact ⟨extents, rfl⟩

/-- The registration and the sections of a kernel, and what they are made from. -/
theorem kernel_eq_ok {options : RenderOptions} {k : Kernel} (h : (o.kernel options).outcome = .ok k) :
    o.registrations = .ok k.registrations ∧
      List.Forall₂ (fun (p, position) stmts => (inputStatements p.name (position : Nat) p.shape).outcome = .ok stmts)
        o.inputs.zipIdx k.inputs ∧
      List.Forall₂ (fun (p, position) stmts => (outputStatements p.name (position : Nat) p.shape).outcome = .ok stmts)
        o.outputs.zipIdx k.outputs ∧
      (k.shapeInferences = o.outputs.zipIdx.map fun (p, position) => .ofOutput (position : Nat) p.shape) ∧
      k.call = callStatements o.function (o.pureOutputs.map fun p => (p.name, p.shape)) o.arguments := by
  unfold kernel at h
  obtain ⟨lines, hlines, h⟩ := Traced.outcome_bind_eq_ok.mp h
  obtain ⟨inputs, hinputs, h⟩ := Traced.outcome_bind_eq_ok.mp h
  obtain ⟨outputs, houtputs, h⟩ := Traced.outcome_bind_eq_ok.mp h
  obtain ⟨_, _, h⟩ := Traced.outcome_bind_eq_ok.mp h
  cases h
  exact ⟨hlines, Traced.outcome_forEach_eq_ok.mp hinputs, Traced.outcome_forEach_eq_ok.mp houtputs, rfl, rfl⟩

/-- The sections of a kernel follow the ids of the operands and attributes. -/
theorem agreesOn_of_kernel {options : RenderOptions} {k : Kernel} (hflaw : o.flaw? = none)
    (h : (o.kernel options).outcome = .ok k) :
    k.AgreesOn o o.inputs o.outputs (sortBy Prod.fst o.arguments) := by
  obtain ⟨hlines, hinputs, houtputs, hshapes, hcall⟩ := kernel_eq_ok h
  exact
    { ins_perm := sortBy_perm _ _
      ins_strict := sortBy_strict (filterIds_nodup hflaw _)
      outs_perm := sortBy_perm _ _
      outs_strict := sortBy_strict (filterIds_nodup hflaw _)
      args_perm := (sortBy_perm _ _).trans
        ((List.Perm.refl _).append ((sortBy_perm _ _).map _))
      args_strict := sortBy_strict (argumentIds_nodup hflaw)
      inputs_registered := (registrations_filter hlines).1
      outputs_registered := (registrations_filter hlines).2
      inputs_converted := hinputs.imp fun _ _ => convertsInput
      outputs_converted := houtputs.imp fun _ _ => convertsOutput
      shapes_inferred := hshapes
      called_once := hcall ▸ functionCalls_callStatements _ _ _
      call_alone := hcall ▸ ⟨methodCalls_callStatements _ _ _ _, methodCalls_callStatements _ _ _ _⟩ }

/-- The source text of an operator without a flaw is that of a kernel whose sections agree on the positions of the
operands, under every setting. -/
theorem render_agrees {options : RenderOptions} {text : String} (hflaw : o.flaw? = none)
    (h : (o.render options).outcome = .ok text) :
    ∃ k : Kernel, (o.kernel options).outcome = .ok k ∧ k.text = text ∧
      ∃ ins outs args, k.AgreesOn o ins outs args := by
  obtain ⟨k, hk, h⟩ := Traced.outcome_bind_eq_ok.mp h
  exact ⟨k, hk, Except.ok.inj h, o.inputs, o.outputs, sortBy Prod.fst o.arguments, agreesOn_of_kernel hflaw hk⟩

/-- An operator with an operand of each role and an attribute, listed against the order of the ids. -/
def blend : Operator :=
  { name := "Blend"
    function := "blend"
    operands := [
      ⟨7, "base", .input, .array [.string "none", .string "CV_8U"], ⟨[], [none], .matrix .u8 none .mat false⟩⟩,
      ⟨4, "weights", .inputOutput, .array [.string "vector:none", .string "double"],
        ⟨[none], [], .primitive .double false⟩⟩,
      ⟨2, "blended", .output, .array [.string "none", .string "CV_8U"], ⟨[], [none], .matrix .u8 none .mat false⟩⟩]
    attributes := [⟨3, "ratio", .string "float = 0.5", ⟨.float, "0.5"⟩⟩]
    device := .string defaultDevice }

/-- The kernel of the blend takes its inputs, its outputs and the arguments of its function by their ids. -/
theorem render_agrees_blend :
    blend.flaw? = none ∧ ∃ k : Kernel, (blend.kernel .default).outcome = .ok k ∧
      (blend.render .default).outcome = .ok k.text ∧ ∃ ins outs args, k.AgreesOn blend ins outs args := by
  have hflaw : blend.flaw? = none := by rfl
  have hrender : (blend.render .default).outcome.isOk = true := by rfl
  refine ⟨hflaw, ?_⟩
  cases houtcome : (blend.render .default).outcome with
  | error e =>
    rw [houtcome] at hrender
    cases hrender
  | ok text =>
    obtain ⟨k, hk, htext, hagrees⟩ := render_agrees hflaw houtcome
    exact ⟨k, hk, congrArg Except.ok htext.symm, hagrees⟩

end Operator

end TensorBridge
