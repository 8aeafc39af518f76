import TensorBridge.Proofs.Conversion.PlainTexts
import TensorBridge.Proofs.Kernel.Positions
import TensorBridge.Proofs.Kernel.Rendering

/-!
# Brackets of a kernel

A kernel's text is a frame around its sections. The frame opens a namespace, a class and two functions and closes them
further on, with sections in between that are put together from lines of their own: registrations, inferences of
shapes, attributes, and the statements of the conversions. The main statement says that the whole text is well
bracketed if the texts that it takes over from the operator and the settings have no brackets and quotes.
-/

namespace TensorBridge

/-! ## Sections -/

/-- A section of closed pieces is closed, however far it is indented. -/
theorem isClosedText_sectionText {pieces : List String} (h : ∀ piece ∈ pieces, IsClosedText piece) (level : Nat) :
    IsClosedText (sectionText pieces level) := by
  have hkept : ∀ piece ∈ pieces.filter (!·.isEmpty), IsClosedText piece :=
    fun piece hpiece => h piece (List.mem_of_mem_filter hpiece)
  exact fun opened => (leadsThrough_of_forall hkept opened).unlines.indent _

/-- A section with one closed piece for each of some items is closed. -/
theorem isClosedText_sectionText_map {α : Type} {items : List α} {piece : α → String}
    (h : ∀ item ∈ items, IsClosedText (piece item)) (level : Nat) :
    IsClosedText (sectionText (items.map piece) level) :=
  isClosedText_sectionText (List.forall_mem_map.mpr h) level

/-- The texts of a registration are plain: its name, and its type or its default value. -/
def Registration.IsPlain : Registration → Prop
  | .input name dataType => IsPlainText name ∧ IsPlainText dataType
  | .attr name type => IsPlainText name ∧ IsPlainText type.default
  | .output name dataType => IsPlainText name ∧ IsPlainText dataType

/-- A line that has a name and a type between quotes is closed. -/
theorem isClosedText_description {front name type : String}
    (hfront : ∀ opened, Leads ⟨false, opened⟩ front ⟨true, .round :: opened⟩) (hname : IsPlainText name)
    (htype : IsPlainText type) : IsClosedText (front ++ name ++ ": " ++ type ++ "\x22)") := by
  intro opened
  have hcolon : IsPlainText ": " := by decide
  have hend : Leads ⟨true, .round :: opened⟩ "\x22)" ⟨false, opened⟩ := rfl
  exact ((((hfront opened).append (hname.leads _)).append (hcolon.leads _)).append (htype.leads _)).append hend

/-- The name of a kind of attributes is plain. -/
theorem AttrKind.isPlainText_name (kind : AttrKind) : IsPlainText kind.name := by cases kind <;> decide

/-- The type of an attribute is plain if its default value is. -/
theorem AttrType.isPlainText_text {type : AttrType} (h : IsPlainText type.default) : IsPlainText type.text :=
  isPlainText_append.mpr ⟨isPlainText_append.mpr ⟨type.kind.isPlainText_name, by decide⟩, h⟩

/-- A registration with plain texts is closed. -/
theorem Registration.IsPlain.isClosedText_text {r : Registration} (h : r.IsPlain) : IsClosedText r.text := by
  cases r with
  | input name dataType => exact isClosedText_description (fun _ => rfl) h.1 h.2
  | attr name type => exact isClosedText_description (fun _ => rfl) h.1 (AttrType.isPlainText_text h.2)
  | output name dataType => exact isClosedText_description (fun _ => rfl) h.1 h.2

/-- The call that makes a shape is closed. -/
theorem isClosedText_inferredShape (extents : List Extent) : IsClosedText (inferredShape extents) := by
  have hextent (extent : Extent) : IsPlainText (inferredText extent) := by
    cases extent with
    | none => exact (by decide : IsPlainText unknownExtent)
    | some n => exact isPlainText_nat n
  unfold inferredShape
  split
  · exact fun _ => rfl
  · exact (hextent _).isClosedText.between [.round] (fun _ => rfl) fun _ => rfl
  · next a b =>
    intro opened
    have hstart : Leads ⟨false, opened⟩ "c->Matrix(" ⟨false, .round :: opened⟩ := rfl
    have hcomma : IsPlainText ", " := by decide
    have hend : Leads ⟨false, .round :: opened⟩ ")" ⟨false, opened⟩ := rfl
    exact (((hstart.append ((hextent a).leads _)).append (hcomma.leads _)).append ((hextent b).leads _)).append hend
  · have hitems : ∀ item ∈ extents.map inferredText, IsClosedText item :=
      List.forall_mem_map.mpr fun extent _ => (hextent extent).isClosedText
    exact (isClosedText_commaList hitems).between [.curly, .round] (fun _ => rfl) fun _ => rfl

/-- The inference of a shape is closed. -/
theorem ShapeInference.isClosedText_text (i : ShapeInference) : IsClosedText i.text := by
  intro opened
  have hstart : Leads ⟨false, opened⟩ "c->set_output(" ⟨false, .round :: opened⟩ := rfl
  have hcomma : IsPlainText ", " := by decide
  have hend : Leads ⟨false, .round :: opened⟩ ");" ⟨false, opened⟩ := rfl
  exact (((hstart.append ((isPlainText_int i.output).leads _)).append (hcomma.leads _)).append
    (isClosedText_inferredShape i.extents _)).append hend

/-- The reading of an attribute with a plain name is closed. -/
theorem isClosedText_attributeReading {name : String} (h : IsPlainText name) :
    IsClosedText (attributeReading name) := by
  intro opened
  have hstart : Leads ⟨false, opened⟩ "OP_REQUIRES_OK(context, context->GetAttr(\x22"
      ⟨true, .round :: .round :: opened⟩ := leads_ofList [] [.round, .round] (by decide +kernel) opened
  have hmember : Leads ⟨true, .round :: .round :: opened⟩ "\x22, &" ⟨false, .round :: .round :: opened⟩ := rfl
  have hend : Leads ⟨false, .round :: .round :: opened⟩ "_));" ⟨false, opened⟩ := rfl
  exact (((hstart.append ((isPlainText_snakeCase name).leads _)).append hmember).append (h.leads _)).append hend

/-- The member for an attribute with a plain name is plain. -/
theorem isPlainText_attributeMember {name : String} (h : IsPlainText name) (type : AttrType) :
    IsPlainText (attributeMember name type) := by
  simp only [attributeMember, isPlainText_append]
  exact ⟨⟨⟨type.kind.isPlainText_name, by decide⟩, h⟩, by decide⟩

/-! ## The frame -/

/-- A kernel whose own texts are plain, in the frame and in the sections. -/
structure Kernel.IsPlain (k : Kernel) : Prop where
  operator : IsPlainText k.operator
  header : IsPlainText k.header
  namespaces : ∀ ns ∈ k.namespaces, IsPlainText ns
  device : IsPlainText k.device
  registrations : ∀ r ∈ k.registrations, r.IsPlain
  attributes : ∀ a ∈ k.attributes, IsPlainText a.1
  inputs : ∀ stmts ∈ k.inputs, Stmt.ArePlain stmts
  call : Stmt.ArePlain k.call
  outputs : ∀ stmts ∈ k.outputs, Stmt.ArePlain stmts

/-- The lines for the namespaces of a kernel are plain. -/
theorem Kernel.IsPlain.isPlainText_namespaces {k : Kernel} (h : k.IsPlain) :
    IsPlainText (String.join (k.namespaces.map fun ns => "using namespace " ++ ns ++ ";\n")) := by
  intro c hc
  rw [String.toList_join, List.flatMap_map] at hc
  obtain ⟨ns, hns, hc⟩ := List.mem_flatMap.mp hc
  have hline : IsPlainText ("using namespace " ++ ns ++ ";\n") :=
    isPlainText_append.mpr ⟨isPlainText_append.mpr ⟨by decide, h.namespaces ns hns⟩, by decide⟩
  exact hline c hc

section Frame

variable {operator : String} (hoperator : IsPlainText operator) (opened : List Bracket)

include hoperator

/-- The head of the class opens a block. -/
theorem leads_classHead :
    Leads ⟨false, opened⟩ ("class " ++ operator ++ "Op : public OpKernel \x7b") ⟨false, .curly :: opened⟩ := by
  have hclass : IsPlainText "class " := by decide
  have hbase : Leads ⟨false, opened⟩ "Op : public OpKernel \x7b" ⟨false, .curly :: opened⟩ :=
    leads_ofList [] [.curly] (by decide +kernel) opened
  exact ((hclass.leads _).append (hoperator.leads _)).append hbase

/-- The head of the constructor opens a block. -/
theorem leads_constructorHead :
    Leads ⟨false, opened⟩
      ("  explicit " ++ operator ++ "Op(OpKernelConstruction* context) : OpKernel(context) \x7b")
      ⟨false, .curly :: opened⟩ := by
  have hexplicit : IsPlainText "  explicit " := by decide
  have hbase : Leads ⟨false, opened⟩ "Op(OpKernelConstruction* context) : OpKernel(context) \x7b"
      ⟨false, .curly :: opened⟩ := leads_ofList [] [.curly] (by decide +kernel) opened
  exact ((hexplicit.leads _).append (hoperator.leads _)).append hbase

/-- The registration of the kernel is closed. -/
theorem leads_kernelBuilder {device : String} (hdevice : IsPlainText device) :
    Leads ⟨false, opened⟩
      ("REGISTER_KERNEL_BUILDER(Name(\x22" ++ operator ++ "\x22).Device(" ++ device ++ "), " ++ operator ++ "Op);")
      ⟨false, opened⟩ := by
  have hstart : Leads ⟨false, opened⟩ "REGISTER_KERNEL_BUILDER(Name(\x22" ⟨true, .round :: .round :: opened⟩ :=
    leads_ofList [] [.round, .round] (by decide +kernel) opened
  have hdeviceCall : Leads ⟨true, .round :: .round :: opened⟩ "\x22).Device(" ⟨false, .round :: .round :: opened⟩ :=
    leads_ofList [.round, .round] [.round, .round] (by decide +kernel) opened
  have hcomma : Leads ⟨false, .round :: .round :: opened⟩ "), " ⟨false, .round :: opened⟩ := rfl
  have hend : Leads ⟨false, .round :: opened⟩ "Op);" ⟨false, opened⟩ := rfl
  exact (((((hstart.append (hoperator.leads _)).append hdeviceCall).append (hdevice.leads _)).append hcomma).append
    (hoperator.leads _)).append hend

end Frame

/-- The text of a kernel with plain texts is closed. -/
theorem Kernel.IsPlain.isClosedText_text {k : Kernel} (h : k.IsPlain) : IsClosedText k.text := by
  intro opened
  have fixed {cs : List Char} (hcs : IsWellBracketed cs) := isClosedText_ofList hcs
  have hblank : IsClosedText "" := fun _ => rfl
  have hheader : IsClosedText ("#include \x22" ++ k.header ++ "\x22") :=
    isClosedText_quoted h.header.not_mem [] (fun _ => rfl) fun _ => rfl
  have hregister : IsClosedText ("REGISTER_OP(\x22" ++ k.operator ++ "\x22)") :=
    isClosedText_quoted h.operator.not_mem [.round] (fun _ => rfl) fun _ => rfl
  have hregistrations := isClosedText_sectionText_map (fun r hr => (h.registrations r hr).isClosedText_text) 1
  have hinferences := isClosedText_sectionText_map
    (fun i (_ : i ∈ k.shapeInferences) => ShapeInference.isClosedText_text i) 2
  have hreadings := isClosedText_sectionText_map
    (fun a ha => isClosedText_attributeReading (h.attributes a ha)) 2
  have hmembers := isClosedText_sectionText_map
    (fun a ha => (isPlainText_attributeMember (h.attributes a ha) a.2).isClosedText) 1
  have hinputs := isClosedText_sectionText_map (fun stmts hs => Stmt.isClosedText_stmtText (h.inputs stmts hs)) 2
  have hcall := isClosedText_sectionText (List.forall_mem_singleton.mpr (Stmt.isClosedText_stmtText h.call)) 2
  have houtputs := isClosedText_sectionText_map (fun stmts hs => Stmt.isClosedText_stmtText (h.outputs stmts hs)) 2
  refine LeadsThrough.unlines ?_
  -- the files that are included and the namespaces that are used
  refine .cons (fixed (by decide +kernel) _) <| .cons (hblank _) <| .cons (fixed (by decide +kernel) _) <|
    .cons (hblank _) <| .cons (fixed (by decide +kernel) _) <| .cons (fixed (by decide +kernel) _) <|
    .cons (hblank _) <| .cons (fixed (by decide +kernel) _) <| .cons (hblank _) <| .cons (hheader _) <|
    .cons (hblank _) <| .cons (fixed (by decide +kernel) _) <| .cons (fixed (by decide +kernel) _) <|
    .cons (h.isPlainText_namespaces.isClosedText _) ?_
  -- the namespace, which stays open up to the end
  refine .cons (leads_ofList [] [.curly] (by decide +kernel) opened) <| .cons (hblank _) <|
    .cons (fixed (by decide +kernel) _) <| .cons (hblank _) ?_
  -- the registration, with the function that infers the shapes
  refine .cons (hregister _) <| .cons (hregistrations _) <|
    .cons (leads_ofList [] [.curly, .round] (by decide +kernel) _) <| .cons (hinferences _) <|
    .cons (fixed (by decide +kernel) _) <| .cons (leads_ofList [.curly, .round] [] (by decide +kernel) _) <|
    .cons (hblank _) ?_
  -- the class, with its constructor
  refine .cons (leads_classHead h.operator _) <| .cons (fixed (by decide +kernel) _) <|
    .cons (leads_constructorHead h.operator _) <| .cons (hreadings _) <|
    .cons (leads_ofList [.curly] [] (by decide +kernel) _) <| .cons (hblank _) ?_
  -- the computation
  refine .cons (leads_ofList [] [.curly] (by decide +kernel) _) <| .cons (hinputs _) <| .cons (hblank _) <|
    .cons (hcall _) <| .cons (hblank _) <| .cons (houtputs _) <|
    .cons (leads_ofList [.curly] [] (by decide +kernel) _) <| .cons (hblank _) ?_
  -- the members, behind which the class is closed
  refine .cons (fixed (by decide +kernel) _) <| .cons (hmembers _) <|
    .cons (leads_ofList [.curly] [] (by decide +kernel) _) <| .cons (hblank _) ?_
  exact .cons (leads_kernelBuilder h.operator _ h.device) <| .cons (hblank _) <|
    .cons (leads_ofList [.curly] [] (by decide +kernel) opened) <| .cons (hblank _) .nil

/-! ## The kernel of an operator -/

/-- A setting that is given, or else its default, is plain if both are. -/
theorem isPlainText_givenText {setting : Option String} {default : String}
    (hsetting : ∀ text ∈ setting, IsPlainText text) (hdefault : IsPlainText default) :
    IsPlainText (givenText setting default) := by
  cases setting with
  | none => exact hdefault
  | some text =>
    unfold givenText
    dsimp only
    split
    · exact hdefault
    · exact hsetting text rfl

namespace Operator

/-- The texts that a kernel takes over from its operator and from the settings have no brackets and no double quotes.
The device is the one of the settings if they give one, or else the one of the operator. -/
structure HasPlainTexts (o : Operator) (options : RenderOptions) : Prop where
  name : IsPlainText o.name
  function : IsPlainText o.function
  device : IsPlainText (givenText options.device o.device.display)
  header : ∀ header ∈ options.header, IsPlainText header
  namespaces : ∀ ns ∈ options.namespaces, IsPlainText ns
  operands : ∀ p ∈ o.operands, IsPlainText p.name
  attributes : ∀ a ∈ o.attributes, IsPlainText a.name ∧ IsPlainText a.type.default

variable {o : Operator} {options : RenderOptions}

/-- The names and the default values of the attributes are plain, also in the order of their ids. -/
theorem HasPlainTexts.sortedAttributes (h : o.HasPlainTexts options) :
    ∀ a ∈ o.sortedAttributes, IsPlainText a.name ∧ IsPlainText a.type.default :=
  fun a ha => h.attributes a ((sortBy_perm Attribute.id _).mem_iff.mp ha)

/-- The lines of a registration are plain. -/
theorem HasPlainTexts.registrations (h : o.HasPlainTexts options) {lines : List Registration}
    (hlines : o.registrations = .ok lines) : ∀ line ∈ lines, line.IsPlain := by
  have hdataType {s : Shape} {type : String} (htype : s.element.tensorType = .ok type) : IsPlainText type := by
    obtain ⟨depth, _, rfl⟩ := except_map_eq_ok.mp htype
    cases depth <;> decide
  obtain ⟨inputs, outputs, hinputs, houtputs, rfl⟩ := registrations_eq_ok hlines
  rw [List.forall_mem_append, List.forall_mem_append]
  refine ⟨⟨fun line hline => ?input, ?attr⟩, fun line hline => ?output⟩
  case input =>
    obtain ⟨p, _, hp⟩ := exists_left_of_forall₂ hinputs hline
    obtain ⟨type, htype, rfl⟩ := except_map_eq_ok.mp hp
    exact ⟨isPlainText_snakeCase _, hdataType htype⟩
  case attr =>
    exact List.forall_mem_map.mpr fun a ha => ⟨isPlainText_snakeCase _, (h.sortedAttributes a ha).2⟩
  case output =>
    obtain ⟨p, _, hp⟩ := exists_left_of_forall₂ houtputs hline
    obtain ⟨type, htype, rfl⟩ := except_map_eq_ok.mp hp
    exact ⟨isPlainText_snakeCase _, hdataType htype⟩

/-- The arguments of the user's function are plain. -/
theorem HasPlainTexts.arguments (h : o.HasPlainTexts options) : ∀ x ∈ o.arguments, IsPlainText x.2 := by
  rw [Operator.arguments, List.forall_mem_append, List.forall_mem_map, List.forall_mem_map]
  refine ⟨fun p hp => Names.isPlainText_part ⟨p.name⟩ (h.operands p hp) .value, fun a ha => ?_⟩
  exact isPlainText_append.mpr ⟨(h.sortedAttributes a ha).1, by decide⟩

/-- What the frame of a kernel is filled with. -/
theorem kernel_frame {k : Kernel} (hk : (o.kernel options).outcome = .ok k) :
    k.operator = o.name ∧ k.header = givenText options.header (o.function ++ ".hpp") ∧
      k.namespaces = options.namespaces ∧ k.device = givenText options.device o.device.display ∧
      k.attributes = o.sortedAttributes.map fun a => (a.name, a.type) := by
  unfold kernel at hk
  obtain ⟨_, _, hk⟩ := Traced.outcome_bind_eq_ok.mp hk
  obtain ⟨_, _, hk⟩ := Traced.outcome_bind_eq_ok.mp hk
  obtain ⟨_, _, hk⟩ := Traced.outcome_bind_eq_ok.mp hk
  obtain ⟨_, _, hk⟩ := Traced.outcome_bind_eq_ok.mp hk
  cases hk
  exact ⟨rfl, rfl, rfl, rfl, rfl⟩

/-- The kernel of an operator with plain texts is plain. -/
theorem HasPlainTexts.kernel (h : o.HasPlainTexts options) {k : Kernel} (hk : (o.kernel options).outcome = .ok k) :
    k.IsPlain := by
  obtain ⟨hlines, hinputs, houtputs, _, hcall⟩ := kernel_eq_ok hk
  obtain ⟨hoperator, hheader, hnamespaces, hdevice, hattributes⟩ := kernel_frame hk
  obtain ⟨hinputNames, houtputNames⟩ := forall_inputs_and_outputs.mpr h.operands
  constructor
  case operator => exact hoperator ▸ h.name
  case header =>
    rw [hheader]
    exact isPlainText_givenText h.header (isPlainText_append.mpr ⟨h.function, by decide⟩)
  case namespaces => exact hnamespaces ▸ h.namespaces
  case device => exact hdevice ▸ h.device
  case registrations => exact h.registrations hlines
  case attributes =>
    rw [hattributes]
    exact List.forall_mem_map.mpr fun a ha => (h.sortedAttributes a ha).1
  case inputs =>
    intro stmts hstmts
    obtain ⟨p, hp, hconversion⟩ := exists_left_of_forall₂ hinputs hstmts
    exact arePlain_inputStatements (hinputNames p.1 (List.fst_mem_of_mem_zipIdx hp)) hconversion
  case call =>
    rw [hcall]
    refine arePlain_callStatements h.function (List.forall_mem_map.mpr fun p hp => ?_) h.arguments
    exact h.operands p ((sortBy_perm Operand.id _).mem_iff.mp (List.mem_of_mem_filter hp))
  case outputs =>
    intro stmts hstmts
    obtain ⟨p, hp, hconversion⟩ := exists_left_of_forall₂ houtputs hstmts
    exact arePlain_outputStatements (houtputNames p.1 (List.fst_mem_of_mem_zipIdx hp)) hconversion

/-- The source text of an operator is well bracketed, under every setting, if the texts that it takes over have no
brackets and no double quotes: its double quotes come in pairs, and outside these its brackets are properly nested. -/
theorem render_wellBracketed (h : o.HasPlainTexts options) {text : String}
    (htext : (o.render options).outcome = .ok text) : IsWellBracketed text.toList := by
  obtain ⟨k, hk, hrendered⟩ := Traced.outcome_bind_eq_ok.mp htext
  obtain rfl : k.text = text := Except.ok.inj hrendered
  exact isClosedText_iff.mp (h.kernel hk).isClosedText_text

/-- The settings of a run on another device, with a header and a namespace of its own. -/
def acceleratedOptions : RenderOptions :=
  { device := some "DEVICE_GPU", header := some "imaging/blend.hpp", namespaces := ["imaging"] }

/-- The source text of the blend is well bracketed on another device. -/
theorem render_wellBracketed_blend :
    blend.HasPlainTexts acceleratedOptions ∧
      ∃ text, (blend.render acceleratedOptions).outcome = .ok text ∧ IsWellBracketed text.toList := by
  have hplain : blend.HasPlainTexts acceleratedOptions := by
    constructor
    case name => decide
    case function => decide
    case device => decide
    case header => exact fun header hheader => Option.some.inj hheader ▸ by decide
    case namespaces => exact List.forall_mem_singleton.mpr (by decide)
    case operands =>
      simp only [blend, List.forall_mem_cons]
      exact ⟨by decide, by decide, by decide, List.forall_mem_nil _⟩
    case attributes => exact List.forall_mem_singleton.mpr ⟨by decide, by decide⟩
  have hrender : (blend.render acceleratedOptions).outcome.isOk = true := by rfl
  refine ⟨hplain, ?_⟩
  cases houtcome : (blend.render acceleratedOptions).outcome with
  | error e =>
    rw [houtcome] at hrender
    cases hrender
  | ok text => exact ⟨text, rfl, render_wellBracketed hplain houtcome⟩

end Operator

end TensorBridge
