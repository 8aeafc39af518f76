import TensorBridge.Proofs.Kernel.Positions
import TensorBridge.Proofs.Text.NormalForms

/-!
# Registered names

An operator registers its inputs, attributes and outputs under their names in snake case; an operand that is both read
and written has a name of its own for its input side. The names of an operator are distinct as they are given, but
different names may have the same words. Here the registered names are shown to be distinct exactly if the words of the
given names are, and if no name has the words of the input side of another.
-/

namespace TensorBridge

/-- The name that a line registers. -/
def Registration.name : Registration → String
  | .input name _ => name
  | .attr name _ => name
  | .output name _ => name

/-- The registration of an input has its name in snake case. -/
theorem Registration.name_ofInput {name : String} {s : Shape} {line : Registration} (h : ofInput name s = .ok line) :
    line.name = snakeCase name := by
  obtain ⟨type, _, rfl⟩ := except_map_eq_ok.mp h
  rfl

/-- The registration of an output has its name in snake case. -/
theorem Registration.name_ofOutput {name : String} {s : Shape} {line : Registration} (h : ofOutput name s = .ok line) :
    line.name = snakeCase name := by
  obtain ⟨type, _, rfl⟩ := except_map_eq_ok.mp h
  rfl

/-- Names are distinct in snake case if their words are. -/
theorem nodup_map_snakeCase_iff (names : List String) :
    (names.map snakeCase).Nodup ↔ (names.map words).Nodup := by
  rw [List.Nodup, List.Nodup, List.pairwise_map, List.pairwise_map]
  exact List.Pairwise.iff fun _ _ => not_congr snakeCase_eq_iff

namespace Operator

variable {o : Operator}

/-- The names under which an operator registers its inputs, attributes and outputs, before they are put into snake
case. -/
def registeredNames (o : Operator) : List String :=
  o.inputs.map Operand.inputName ++ o.sortedAttributes.map Attribute.name ++ o.outputs.map Operand.name

/-- The names in the lines of a registration. -/
theorem map_name_registrations {lines : List Registration} (h : o.registrations = .ok lines) :
    lines.map Registration.name = o.registeredNames.map snakeCase := by
  have hnames {f : Operand → Except Error Registration} {name : Operand → String}
      (hf : ∀ p line, f p = .ok line → line.name = snakeCase (name p)) {ps : List Operand} {lines : List Registration}
      (hlines : List.Forall₂ (fun p line => f p = .ok line) ps lines) :
      lines.map Registration.name = (ps.map name).map snakeCase := by
    induction hlines with
    | nil => rfl
    | cons hline _ ih => rw [List.map_cons, List.map_cons, List.map_cons, ih, hf _ _ hline]
  have hattributes (attributes : List Attribute) :
      (attributes.map fun a => Registration.ofAttribute a.name a.type).map Registration.name =
        (attributes.map Attribute.name).map snakeCase := by
    rw [List.map_map, List.map_map]
    rfl
  obtain ⟨inputs, outputs, hinputs, houtputs, rfl⟩ := registrations_eq_ok h
  rw [registeredNames, List.map_append, List.map_append, List.map_append, List.map_append, hattributes,
    hnames (fun p line hline => Registration.name_ofInput hline) hinputs,
    hnames (fun p line hline => Registration.name_ofOutput hline) houtputs]

/-- The operands that are both read and written. -/
def inputOutputs (o : Operator) : List Operand := o.operands.filter (·.role == .inputOutput)

/-- Both sides of some operands: all of them, and the input sides of those that are both read and written. -/
theorem sides_perm (ps : List Operand) :
    ((ps.filter (·.role.isInput)).map Operand.inputName ++ (ps.filter (·.role.isOutput)).map Operand.name).Perm
      (ps.map Operand.name ++ (ps.filter (·.role == .inputOutput)).map Operand.inputName) := by
  induction ps with
  | nil => exact List.Perm.refl _
  | cons p rest ih =>
    cases hrole : p.role with
    | input =>
      have hname : p.inputName = p.name := by rw [Operand.inputName, hrole, if_neg (by decide)]
      simp only [List.filter_cons, hrole, Role.isInput, Role.isOutput, List.map_cons]
      exact hname ▸ ih.cons p.name
    | output =>
      simp only [List.filter_cons, hrole, Role.isInput, Role.isOutput, List.map_cons]
      exact List.perm_middle.trans (ih.cons p.name)
    | inputOutput =>
      simp only [List.filter_cons, hrole, Role.isInput, Role.isOutput, List.map_cons]
      have hboth := (List.perm_middle.trans (ih.cons p.name)).cons p.inputName
      exact (hboth.trans (List.Perm.swap _ _ _)).trans (List.perm_middle.symm.cons p.name)

/-- The registered names are those of all operands and attributes, and one more for the input side of every operand
that is also written. -/
theorem registeredNames_perm (o : Operator) :
    o.registeredNames.Perm (o.items.map Prod.snd ++ o.inputOutputs.map Operand.inputName) := by
  have hinputs := (sortBy_perm Operand.id (o.operands.filter (·.role.isInput))).map Operand.inputName
  have houtputs := (sortBy_perm Operand.id (o.operands.filter (·.role.isOutput))).map Operand.name
  have hattributes := (sortBy_perm Attribute.id o.attributes).map Attribute.name
  have hitems : o.items.map Prod.snd = o.operands.map Operand.name ++ o.attributes.map Attribute.name := by
    rw [items, List.map_append, List.map_map, List.map_map]
    rfl
  have hsides := (sides_perm o.operands).append_right (o.attributes.map Attribute.name)
  rw [registeredNames, hitems, List.append_assoc, List.append_assoc]
  -- The attributes are moved behind the operands, and the input sides behind the attributes.
  refine (hinputs.append ((hattributes.append houtputs).trans List.perm_append_comm)).trans ?_
  rw [← List.append_assoc]
  refine hsides.trans ?_
  rw [List.append_assoc]
  exact List.perm_append_comm.append_left _

/-- The words of the input side of an operand that is both read and written. -/
theorem words_inputName {p : Operand} (h : p ∈ o.inputOutputs) : words p.inputName = words p.name ++ ["in"] := by
  have hrole : p.role = .inputOutput := eq_of_beq (List.mem_filter.mp h).2
  have hending : p.name ++ "_in" = p.name ++ "_" ++ "in" := by
    rw [String.append_assoc]
    rfl
  rw [Operand.inputName, if_pos hrole, hending, words_append_underscore]
  exact congrArg (words p.name ++ ·) (by decide)

/-- The names under which an operator is registered are distinct exactly if the words of the names of its operands and
attributes are, and if none of these has the words of an operand that is both read and written with one more word for
the input side. -/
theorem registeredNames_nodup_iff (o : Operator) :
    (∀ (options : RenderOptions) (k : Kernel), (o.kernel options).outcome = .ok k →
      k.registrations.map Registration.name = o.registeredNames.map snakeCase) ∧
    ((o.registeredNames.map snakeCase).Nodup ↔
      (o.items.map fun item => words item.2).Nodup ∧
        ∀ p ∈ o.operands, p.role = .inputOutput → ∀ item ∈ o.items, words item.2 ≠ words p.name ++ ["in"]) := by
  constructor
  · intro options k hk
    exact map_name_registrations (kernel_eq_ok hk).1
  · have hwords : (o.items.map Prod.snd).map words = o.items.map fun item => words item.2 := List.map_map
    have hsides : (o.inputOutputs.map Operand.inputName).map words =
        (o.inputOutputs.map fun p => words p.name).map (· ++ ["in"]) := by
      rw [List.map_map, List.map_map]
      exact List.map_congr_left fun p hp => words_inputName hp
    have hmem {p : Operand} : p ∈ o.inputOutputs ↔ p ∈ o.operands ∧ p.role = .inputOutput := by
      rw [inputOutputs, List.mem_filter, beq_iff_eq]
    rw [nodup_map_snakeCase_iff, ((registeredNames_perm o).map words).nodup_iff, List.map_append, hwords, hsides,
      List.nodup_append]
    refine and_congr_right fun hitems => ?_
    constructor
    · rintro ⟨_, hdisjoint⟩ p hp hrole item hitem
      exact hdisjoint _ (List.mem_map_of_mem hitem) _
        (List.mem_map_of_mem (List.mem_map_of_mem (hmem.mpr ⟨hp, hrole⟩)))
    · intro hapart
      constructor
      · rw [items, List.map_append, List.map_map] at hitems
        have hoperands : (o.inputOutputs.map fun p => words p.name).Nodup :=
          (List.filter_sublist.map _).nodup (List.nodup_append.mp hitems).1
        exact hoperands.map (List.append_left_injective ["in"])
      · simp only [List.forall_mem_map]
        intro item hitem p hp
        obtain ⟨hoperand, hrole⟩ := hmem.mp hp
        exact hapart p hoperand hrole item hitem

/-- The names of the blend are distinct, that of the input side of its weights among them. -/
theorem registeredNames_nodup_iff_blend :
    blend.registeredNames.map snakeCase = ["weights_in", "base", "ratio", "blended", "weights"] ∧
      (blend.registeredNames.map snakeCase).Nodup := by
  refine ⟨by decide, (registeredNames_nodup_iff blend).2.mpr ⟨by decide, ?_⟩⟩
  intro p hp hrole item hitem
  have hwords : ∀ x ∈ blend.items, ∀ p ∈ blend.operands, words x.2 ≠ words p.name ++ ["in"] := by
    simp only [items, List.forall_mem_append, List.forall_mem_map]
    decide
  exact hwords item hitem p hp

/-- The specification of an operator with two inputs whose names have the same words. -/
def twinSpec : Value :=
  .object [("inputs", .object [("aB", .object [("id", .int 0), ("shape", .array [.string "int"])]),
    ("a_b", .object [("id", .int 1), ("shape", .array [.string "int"])])])]

/-- The operator of that specification. -/
def twins : Operator :=
  { name := "Twins"
    function := "twins"
    operands := [⟨0, "aB", .input, .array [.string "int"], ⟨[], [], .primitive .int false⟩⟩,
      ⟨1, "a_b", .input, .array [.string "int"], ⟨[], [], .primitive .int false⟩⟩]
    attributes := []
    device := .string defaultDevice }

/-- The operator is read without an error and rendered, but it registers one name twice. -/
theorem twins_registered_twice :
    (read twinSpec "twins").outcome = .ok twins ∧ twins.flaw? = none ∧
      ∃ k : Kernel, (twins.kernel .default).outcome = .ok k ∧
        k.registrations.map Registration.name = ["a_b", "a_b"] := by
  refine ⟨by rfl, by rfl, ?_⟩
  obtain ⟨k, hk⟩ := except_exists_of_isOk (e := (twins.kernel .default).outcome) (by rfl)
  refine ⟨k, hk, ?_⟩
  cases hk
  decide

end Operator

end TensorBridge
