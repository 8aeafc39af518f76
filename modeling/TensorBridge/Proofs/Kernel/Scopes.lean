import TensorBridge.Proofs.Conversion.Declarations
import TensorBridge.Proofs.Kernel.Positions
import TensorBridge.Proofs.Kernel.Sites

/-!
# Declarations in a kernel

A kernel converts its inputs, declares the values of the pure outputs, calls the user's function, and converts its
outputs. Every identifier of an operand is declared before it is used and where it is in force; the values that the
function is called with are declared once, outside all blocks and before the call; and what belongs to one operand
never declares a name twice in one block.
-/

namespace TensorBridge

open Conversion

/-! ## The statements for one operand -/

section Statements

variable {name : String} {index : Int} {s : Shape} {stmts : List Stmt}

/-- The parts that the statements for an input declare outside all loops. -/
def inputParts (s : Shape) : List Part :=
  .tensorIn :: .dataIn :: (List.range s.tensorRank).map Part.size ++ valueParts s

/-- These parts differ. -/
theorem inputParts_nodup (s : Shape) : (inputParts s).Nodup := by
  have hsizes : ((List.range s.tensorRank).map Part.size).Nodup :=
    List.nodup_range.map fun a b hab => Part.size.inj hab
  have hvalue := fun p (hp : p ∈ valueParts s) => valueParts_subset s hp
  rw [inputParts, List.nodup_append]
  refine ⟨?_, (valueParts_nodup s).1, ?_⟩
  · simp [hsizes]
  · rintro p hp q hq rfl
    have hmem := hvalue p hq
    simp only [List.mem_cons, List.mem_map] at hp hmem
    rcases hmem with rfl | rfl | rfl | hmem
    · simp at hp
    · simp at hp
    · simp at hp
    · cases hmem

/-- The output tensor is not one of them. -/
theorem tensorOut_not_mem_inputParts (s : Shape) : Part.tensorOut ∉ inputParts s := by
  intro hmem
  rcases List.mem_append.mp hmem with hmem | hmem
  · simp at hmem
  · exact absurd (valueParts_subset s hmem) (by decide)

/-- The statements for an input declare these parts. -/
theorem declares_inputStatements (h : (inputStatements name index s).outcome = .ok stmts) :
    Names.Declares ⟨name⟩ (inputParts s) stmts := by
  obtain ⟨values, hvalues, rfl⟩ := inputStatements_eq h
  constructor
  · rw [inputParts, List.map_append, ← declaredIn_valueBody, List.map_cons, List.map_cons, ← map_size,
      ← declaredIn_tensorSizes]
    change Names.tensorIn ⟨name⟩ :: declaredIn ([_, _] ++ tensorSizes ⟨name⟩ s ++ valueBody ⟨name⟩ s) = _
    rw [declaredIn_append, declaredIn_append]
    rfl
  · have hblocks : Stmt.allBlocks (fetchTensor ⟨name⟩ index :: afterFetch ⟨name⟩ s values) =
        Stmt.allBlocks (tensorSizes ⟨name⟩ s) ++ Stmt.allBlocks (valueBody ⟨name⟩ s) := by
      rw [← Stmt.allBlocks_append]
      rfl
    rw [hblocks, allBlocks_tensorSizes, List.nil_append]
    exact isOwnBlock_valueBody ⟨name⟩ s

/-- The statements for an output declare its tensor. -/
theorem declares_outputStatements (h : (outputStatements name index s).outcome = .ok stmts) :
    Names.Declares ⟨name⟩ [.tensorOut] stmts := by
  obtain ⟨values, hvalues, rfl⟩ := outputStatements_eq h
  let n : Names := ⟨name⟩
  have hsizes : declaredIn (toTensor n s).sizes = ((List.range s.rank).map Part.size).map n.part :=
    (declaredIn_valueSizes n s).trans (map_size _)
  have hdeclared : declaredIn (fillStatements n s index values) =
      ((List.range s.rank).map Part.size ++ [Part.dataOut]).map n.part := by
    have hbody : declaredIn (toTensor n s).body = [] := declaredIn_tensorBody n s
    rw [fillStatements, declaredIn_append, declaredIn_append, hsizes, hbody, List.append_nil, List.map_append]
    rfl
  have hfill : n.IsOwnBlock (declaredIn (fillStatements n s index values)) := by
    refine ⟨_, ?_, by simp, hdeclared⟩
    rw [List.nodup_append]
    exact ⟨List.nodup_range.map fun a b hab => Part.size.inj hab, List.nodup_singleton _, by simp⟩
  have hinside : ∀ block ∈ Stmt.allBlocks (fillStatements n s index values), n.IsOwnBlock block := by
    have hblocks : Stmt.allBlocks (toTensor n s).sizes = [] := allBlocks_valueSizes n s
    rw [fillStatements, Stmt.allBlocks_append, Stmt.allBlocks_append, hblocks]
    exact isOwnBlock_tensorBody n s
  constructor
  · unfold copyStatement
    split <;> rfl
  · change ∀ block ∈ Stmt.blocks (copyStatement n s index values) ++ [], n.IsOwnBlock block
    rw [List.append_nil]
    unfold copyStatement
    split
    · exact List.forall_mem_cons.mpr ⟨hfill, hinside⟩
    · exact List.forall_mem_cons.mpr ⟨isOwnBlock_nil, List.forall_mem_cons.mpr ⟨hfill, hinside⟩⟩

end Statements

/-! ## The computation -/

/-- The statements of a kernel's computation in order. -/
def Kernel.computation (k : Kernel) : List Stmt := k.inputs.flatten ++ k.call ++ k.outputs.flatten

/-- Of some sections, one for each operand of a list, those of one operand. -/
def sectionsOf (p : Operand) (ps : List Operand) (sections : List (List Stmt)) : List Stmt :=
  ((ps.zip sections).filter fun x => x.1.name = p.name).flatMap Prod.snd

/-- The statements of a computation that belong to an operand: those that convert it from its tensor, that declare its
value without one, and that convert it to its tensor. -/
def Kernel.statementsOf (k : Kernel) (o : Operator) (setup : List Stmt) (p : Operand) : List Stmt :=
  sectionsOf p o.inputs k.inputs ++ sectionsOf p o.pureOutputs (setup.map fun s => [s]) ++
    sectionsOf p o.outputs k.outputs

/-- A kernel whose computation declares each identifier before it is used, and none twice for one operand in a block.
After some declarations it calls the user's function; what the call evaluates are its arguments. An identifier is one
by its origin, a name that the conversions or the call make of the name of an operand or an attribute: the user's
function is none, also if it is called like the data of an input or an output, and neither is the call itself
resolved. -/
structure Kernel.IsScoped (k : Kernel) (o : Operator) (setup : List Stmt) (args : List Expr) : Prop where
  called : k.call = setup ++ [.eval (.callNamed o.function args)]
  sections : k.inputs.length = o.inputs.length ∧ setup.length = o.pureOutputs.length ∧
    k.outputs.length = o.outputs.length
  -- The call stands here for its arguments alone: a function with a name like x_in_data is no use of such a variable.
  resolved : EverySite Site.IsResolved []
    (k.inputs.flatten ++ setup ++ args.map Stmt.eval ++ k.outputs.flatten)
  passed : ∀ p ∈ o.operands, Expr.name (p.name ++ "_cv") ∈ args
  declared_once : ∀ text, Expr.name text ∈ args → IsIdentifier text →
    (declaredIn (k.inputs.flatten ++ setup)).count text = 1 ∧ (blocksOf k.computation).flatten.count text = 1
  distinct : ∀ p ∈ o.operands, ∀ block ∈ blocksOf (k.statementsOf o setup p), block.Nodup

/-- Statements that convert an operand from its tensor, under some number. -/
def Operand.IsFetched (p : Operand) (stmts : List Stmt) : Prop :=
  ∃ index : Nat, (inputStatements p.name index p.shape).outcome = .ok stmts

/-- Statements that convert an operand to its tensor, under some number. -/
def Operand.IsAllocated (p : Operand) (stmts : List Stmt) : Prop :=
  ∃ index : Nat, (outputStatements p.name index p.shape).outcome = .ok stmts

/-- The declaration of the value of an operand that has none from its tensor. -/
def Operand.valueDeclaration (p : Operand) : Stmt := .plain p.shape.declaredType (Names.value ⟨p.name⟩)

/-! ### Sections -/

section Sections

variable {R : Operand → List Stmt → Prop} {ps : List Operand} {sections : List (List Stmt)}

/-- The declarations of a name are counted section by section, where each operand declares a name once if it is the
operand of this name. -/
theorem count_declaredIn_flatten {text : String} {owner : String} (h : List.Forall₂ R ps sections)
    (hR : ∀ q stmts, R q stmts → (declaredIn stmts).count text = if q.name = owner then 1 else 0) :
    (declaredIn sections.flatten).count text = (ps.map Operand.name).count owner := by
  induction h with
  | nil => rfl
  | cons hsection _ ih =>
    rw [List.flatten_cons, declaredIn_append, List.count_append, ih, hR _ _ hsection, List.map_cons, List.count_cons]
    simp only [beq_iff_eq]
    omega

/-- There is no section for an operand that is not listed. -/
theorem sectionsOf_eq_nil {p : Operand} (hp : p.name ∉ ps.map Operand.name) : sectionsOf p ps sections = [] := by
  have hnone : ((ps.zip sections).filter fun x => x.1.name = p.name) = [] := by
    rw [List.filter_eq_nil_iff]
    intro x hx hname
    exact hp (List.mem_map.mpr ⟨x.1, (List.of_mem_zip hx).1, of_decide_eq_true hname⟩)
  rw [sectionsOf, hnone]
  rfl

/-- The section of an operand in a list of operands with different names. -/
theorem sectionsOf_eq (h : List.Forall₂ R ps sections) (hnames : (ps.map Operand.name).Nodup) {p : Operand}
    (hp : p ∈ ps) : R p (sectionsOf p ps sections) := by
  induction h with
  | nil => cases hp
  | @cons q stmts ps sections hsection _ ih =>
    obtain ⟨hq, hnames⟩ := List.nodup_cons.mp hnames
    rcases List.mem_cons.mp hp with rfl | hp
    · have hsections : sectionsOf p (p :: ps) (stmts :: sections) = stmts ++ sectionsOf p ps sections := by
        simp [sectionsOf]
      rw [hsections, sectionsOf_eq_nil hq, List.append_nil]
      exact hsection
    · have hne : q.name ≠ p.name := fun heq => hq (heq ▸ List.mem_map_of_mem hp)
      have hsections : sectionsOf p (q :: ps) (stmts :: sections) = sectionsOf p ps sections := by
        simp [sectionsOf, hne]
      rw [hsections]
      exact ih hnames hp

end Sections

/-! ### Counting the declarations of a value -/

section Count

variable {name : String} {parts : List Part}

/-- Other parts do not declare the value of an operand. -/
theorem value_not_mem_map_part (hvalue : Part.value ∉ parts) (owner : String) :
    Names.value ⟨owner⟩ ∉ parts.map (Names.part ⟨name⟩) := by
  intro hmem
  obtain ⟨p, hp, heq⟩ := List.mem_map.mp hmem
  obtain ⟨_, rfl⟩ := Names.part_eq_value_iff.mp heq
  exact hvalue hp

/-- Different parts, the value among them, declare the value of their own operand once. -/
theorem count_map_part (hnodup : parts.Nodup) (hvalue : Part.value ∈ parts) (owner : String) :
    (parts.map (Names.part ⟨name⟩)).count (Names.value ⟨owner⟩) = if name = owner then 1 else 0 := by
  split
  · next heq =>
    subst heq
    apply List.count_eq_one_of_mem
    · exact hnodup.map fun p q h => (Names.part_inj _).mp h
    · exact List.mem_map.mpr ⟨.value, hvalue, rfl⟩
  · next hne =>
    rw [List.count_eq_zero]
    intro hmem
    obtain ⟨p, _, heq⟩ := List.mem_map.mp hmem
    exact hne (congrArg Names.base (Names.part_eq_value_iff.mp heq).1)

/-- The blocks of an operand's own parts do not declare the value of any operand. -/
theorem Names.IsOwnBlock.value_not_mem {block : List String} (h : Names.IsOwnBlock ⟨name⟩ block) (owner : String) :
    Names.value ⟨owner⟩ ∉ block := by
  obtain ⟨parts, _, hvalue, rfl⟩ := h
  exact value_not_mem_map_part hvalue owner

variable {p : Operand} {stmts : List Stmt}

/-- The statements for an input declare its value once. -/
theorem Operand.IsFetched.count (h : p.IsFetched stmts) (owner : String) :
    (declaredIn stmts).count (Names.value ⟨owner⟩) = if p.name = owner then 1 else 0 := by
  obtain ⟨index, h⟩ := h
  rw [(declares_inputStatements h).outside]
  exact count_map_part (inputParts_nodup p.shape) (List.mem_append_right _ (valueParts_nodup p.shape).2) owner

/-- The statements for an output declare no value. -/
theorem Operand.IsAllocated.value_not_mem (h : p.IsAllocated stmts) (owner : String) :
    Names.value ⟨owner⟩ ∉ declaredIn stmts := by
  obtain ⟨index, h⟩ := h
  rw [(declares_outputStatements h).outside]
  exact value_not_mem_map_part (by simp) owner

/-- The declaration of the value of a pure output declares it once. -/
theorem Operand.count_valueDeclaration (p : Operand) (owner : String) :
    (declaredIn [p.valueDeclaration]).count (Names.value ⟨owner⟩) = if p.name = owner then 1 else 0 :=
  count_map_part (List.nodup_singleton Part.value) (List.mem_singleton_self _) owner

end Count

namespace Operator

variable {o : Operator}

/-- The inputs and the pure outputs are all operands. -/
theorem inputs_append_pureOutputs_perm (o : Operator) : (o.inputs ++ o.pureOutputs).Perm o.operands := by
  have hrole (p : Operand) : (p.role == .output) = !p.role.isInput := by cases p.role <;> rfl
  have hpure : o.pureOutputs.Perm (o.operands.filter fun p => !p.role.isInput) := by
    rw [pureOutputs]
    simp only [hrole]
    exact (sortBy_perm Operand.id o.operands).filter _
  exact ((sortBy_perm Operand.id _).append hpure).trans (List.filter_append_perm _ _)

/-- The names of the operands of an operator without a flaw are distinct. -/
theorem operandNames_nodup (h : o.flaw? = none) : (o.operands.map Operand.name).Nodup := by
  have hnames := (items_nodup h).2
  rw [items, List.map_append, List.map_map] at hnames
  exact (List.nodup_append.mp hnames).1

variable {inputs outputs : List (List Stmt)}

/-- The declarations of the values of the pure outputs, each as a section of its own. -/
theorem forall₂_valueDeclaration (o : Operator) :
    List.Forall₂ (fun q stmts => stmts = [q.valueDeclaration]) o.pureOutputs
      ((o.pureOutputs.map Operand.valueDeclaration).map fun s => [s]) := by
  rw [List.map_map]
  exact List.forall₂_map_right_iff.mpr (List.forall₂_same.mpr fun _ _ => rfl)

/-- The value of each operand is declared once before the call: among the inputs or by itself. -/
theorem count_value_before (hflaw : o.flaw? = none) (hinputs : List.Forall₂ Operand.IsFetched o.inputs inputs)
    {p : Operand} (hp : p ∈ o.operands) :
    (declaredIn (inputs.flatten ++ o.pureOutputs.map Operand.valueDeclaration)).count (Names.value ⟨p.name⟩) = 1 := by
  have hinput := count_declaredIn_flatten hinputs fun q stmts h => h.count p.name
  have hpure := count_declaredIn_flatten (forall₂_valueDeclaration o) fun q stmts h =>
    h ▸ q.count_valueDeclaration p.name
  rw [← List.flatMap_def, List.flatMap_singleton'] at hpure
  rw [declaredIn_append, List.count_append, hinput, hpure, ← List.count_append, ← List.map_append,
    ((inputs_append_pureOutputs_perm o).map Operand.name).count_eq]
  exact List.count_eq_one_of_mem (operandNames_nodup hflaw) (List.mem_map_of_mem hp)

/-- No block inside the statements for the inputs and the outputs declares a value. -/
theorem value_not_mem_blocks (hinputs : List.Forall₂ Operand.IsFetched o.inputs inputs)
    (houtputs : List.Forall₂ Operand.IsAllocated o.outputs outputs) (owner : String) {block : List String}
    (hblock : block ∈ Stmt.allBlocks inputs.flatten ∨ block ∈ Stmt.allBlocks outputs.flatten) :
    Names.value ⟨owner⟩ ∉ block := by
  rcases hblock with hblock | hblock
  · obtain ⟨stmts, hstmts, hblock⟩ := Stmt.mem_allBlocks_flatten hblock
    obtain ⟨p, _, index, h⟩ := exists_left_of_forall₂ hinputs hstmts
    exact ((declares_inputStatements h).inside block hblock).value_not_mem owner
  · obtain ⟨stmts, hstmts, hblock⟩ := Stmt.mem_allBlocks_flatten hblock
    obtain ⟨p, _, index, h⟩ := exists_left_of_forall₂ houtputs hstmts
    exact ((declares_outputStatements h).inside block hblock).value_not_mem owner

/-- The statements for the outputs declare no value outside all blocks. -/
theorem value_not_mem_outputs (houtputs : List.Forall₂ Operand.IsAllocated o.outputs outputs) (owner : String) :
    Names.value ⟨owner⟩ ∉ declaredIn outputs.flatten := by
  intro hmem
  obtain ⟨stmts, hstmts, hmem⟩ := mem_declaredIn_flatten hmem
  obtain ⟨p, _, h⟩ := exists_left_of_forall₂ houtputs hstmts
  exact h.value_not_mem owner hmem

/-- An argument that is an identifier of an operand is the value of one. -/
theorem exists_value_of_argument {x : Int × String} (hx : x ∈ o.arguments) (hidentifier : IsIdentifier x.2) :
    ∃ p ∈ o.operands, x.2 = Names.value ⟨p.name⟩ := by
  rcases List.mem_append.mp hx with hx | hx
  · obtain ⟨p, hp, rfl⟩ := List.mem_map.mp hx
    exact ⟨p, hp, rfl⟩
  · obtain ⟨a, _, rfl⟩ := List.mem_map.mp hx
    exact absurd hidentifier (not_isIdentifier_member a.name)

/-- The statements before and after the call, and the arguments of the call, are resolved. -/
theorem isResolved_computation (hflaw : o.flaw? = none) (hinputs : List.Forall₂ Operand.IsFetched o.inputs inputs)
    (houtputs : List.Forall₂ Operand.IsAllocated o.outputs outputs) :
    EverySite Site.IsResolved []
      (inputs.flatten ++ o.pureOutputs.map Operand.valueDeclaration ++
        ((sortBy Prod.fst o.arguments).map fun x => Expr.name x.2).map Stmt.eval ++ outputs.flatten) := by
  have hknown {p : Operand} (hp : p ∈ o.operands) :
      Names.value ⟨p.name⟩ ∈ declaredIn (inputs.flatten ++ o.pureOutputs.map Operand.valueDeclaration) := by
    rw [← List.count_pos_iff, count_value_before hflaw hinputs hp]
    exact Nat.one_pos
  rw [everySite_append, everySite_append, everySite_append]
  refine ⟨⟨⟨everySite_flatten ?_, everySite_of_everywhere ?_⟩, everySite_of_everywhere ?_⟩, everySite_flatten ?_⟩
  · intro stmts hstmts more
    obtain ⟨p, _, index, h⟩ := exists_left_of_forall₂ hinputs hstmts
    exact (everySite_inputStatements h).isResolved_of_isPlaced.isResolved_of_subset (List.nil_subset _)
  · rw [List.forall_mem_map]
    intro p _ more
    exact Stmt.holdsAt_declare.mpr ⟨List.forall_mem_nil _, fun e he => nomatch he⟩
  · rw [List.forall_mem_map, List.forall_mem_map]
    intro x hx more
    refine Stmt.holdsAt_eval.mpr fun text htext hidentifier => ?_
    cases List.mem_singleton.mp htext
    obtain ⟨p, hp, hvalue⟩ := exists_value_of_argument ((sortBy_perm Prod.fst _).mem_iff.mp hx) hidentifier
    rw [hvalue, List.nil_append]
    exact mem_names_append (by simpa using hknown hp) more
  · intro stmts hstmts more
    obtain ⟨p, hp, index, h⟩ := exists_left_of_forall₂ houtputs hstmts
    have hoperand : p ∈ o.operands := List.mem_of_mem_filter ((sortBy_perm Operand.id _).mem_iff.mp hp)
    refine (everySite_outputStatements h).isResolved_of_isPlaced.isResolved_of_subset ?_
    refine List.cons_subset.mpr ⟨mem_names_append ?_ more, List.nil_subset _⟩
    rw [List.nil_append, map_name_bindings, declaredIn_append]
    exact List.mem_append_left _ (hknown hoperand)

/-! ### The statements of one operand -/

/-- Some operands of an operator without a flaw, each listed once. -/
theorem names_nodup_of_perm (hflaw : o.flaw? = none) {ps qs : List Operand} (hperm : ps.Perm qs)
    (hsublist : qs.Sublist o.operands) : (ps.map Operand.name).Nodup :=
  (hperm.map Operand.name).nodup_iff.mpr ((hsublist.map Operand.name).nodup (operandNames_nodup hflaw))

/-- An operand that is not among some operands shares no name with them. -/
theorem name_not_mem (hflaw : o.flaw? = none) {ps : List Operand} (hps : ps ⊆ o.operands) {p : Operand}
    (hp : p ∈ o.operands) (hnot : p ∉ ps) : p.name ∉ ps.map Operand.name := by
  intro hmem
  obtain ⟨q, hq, hname⟩ := List.mem_map.mp hmem
  exact hnot (List.inj_on_of_nodup_map (operandNames_nodup hflaw) (hps hq) hp hname ▸ hq)

/-- The section of an operand, among those of the operands that are chosen. -/
theorem sectionsOf_chosen (hflaw : o.flaw? = none) {R : Operand → List Stmt → Prop} {chosen : Operand → Bool}
    {ps : List Operand} (hperm : ps.Perm (o.operands.filter chosen)) {sections : List (List Stmt)}
    (h : List.Forall₂ R ps sections) {p : Operand} (hp : p ∈ o.operands) :
    if chosen p then R p (sectionsOf p ps sections) else sectionsOf p ps sections = [] := by
  split
  · next hchosen =>
    exact sectionsOf_eq h (names_nodup_of_perm hflaw hperm List.filter_sublist)
      (hperm.mem_iff.mpr (List.mem_filter.mpr ⟨hp, hchosen⟩))
  · next hnot =>
    apply sectionsOf_eq_nil
    refine name_not_mem hflaw (fun q hq => List.mem_of_mem_filter (hperm.mem_iff.mp hq)) hp fun hmem => ?_
    exact hnot (List.mem_filter.mp (hperm.mem_iff.mp hmem)).2

/-- What belongs to an operand in a computation declares different parts outside all blocks. -/
theorem declares_statementsOf (hflaw : o.flaw? = none) {k : Kernel}
    (hinputs : List.Forall₂ Operand.IsFetched o.inputs k.inputs)
    (houtputs : List.Forall₂ Operand.IsAllocated o.outputs k.outputs) {p : Operand} (hp : p ∈ o.operands) :
    ∃ parts : List Part, parts.Nodup ∧
      Names.Declares ⟨p.name⟩ parts (k.statementsOf o (o.pureOutputs.map Operand.valueDeclaration) p) := by
  have hfetched := sectionsOf_chosen hflaw (sortBy_perm Operand.id _) hinputs hp
  have hdeclared := sectionsOf_chosen hflaw ((sortBy_perm Operand.id o.operands).filter _)
    (forall₂_valueDeclaration o) hp
  have hallocated := sectionsOf_chosen hflaw (sortBy_perm Operand.id _) houtputs hp
  have hvalue : Names.Declares ⟨p.name⟩ [.value] [p.valueDeclaration] := ⟨rfl, List.forall_mem_nil _⟩
  unfold Kernel.statementsOf
  -- The role decides which of the three sections are there.
  cases hrole : p.role with
  | input =>
    simp only [hrole] at hfetched hdeclared hallocated
    obtain ⟨index, h⟩ : p.IsFetched _ := hfetched
    have hB : sectionsOf p o.pureOutputs _ = [] := hdeclared
    have hC : sectionsOf p o.outputs k.outputs = [] := hallocated
    rw [hB, hC, List.append_nil, List.append_nil]
    exact ⟨_, inputParts_nodup p.shape, declares_inputStatements h⟩
  | output =>
    simp only [hrole] at hfetched hdeclared hallocated
    obtain ⟨index, h⟩ : p.IsAllocated _ := hallocated
    have hA : sectionsOf p o.inputs k.inputs = [] := hfetched
    have hB : sectionsOf p o.pureOutputs _ = [p.valueDeclaration] := hdeclared
    rw [hA, hB, List.nil_append]
    exact ⟨_, by simp, hvalue.append (declares_outputStatements h)⟩
  | inputOutput =>
    simp only [hrole] at hfetched hdeclared hallocated
    obtain ⟨index, h⟩ : p.IsFetched _ := hfetched
    obtain ⟨index', h'⟩ : p.IsAllocated _ := hallocated
    have hB : sectionsOf p o.pureOutputs _ = [] := hdeclared
    rw [hB, List.append_nil]
    refine ⟨_, ?_, (declares_inputStatements h).append (declares_outputStatements h')⟩
    refine List.nodup_append.mpr ⟨inputParts_nodup p.shape, List.nodup_singleton _, ?_⟩
    rintro part hpart _ hout rfl
    rw [List.mem_singleton.mp hout] at hpart
    exact tensorOut_not_mem_inputParts p.shape hpart

/-- The value of an operand is declared nowhere else. -/
theorem count_value_computation {k : Kernel} (hflaw : o.flaw? = none)
    (hinputs : List.Forall₂ Operand.IsFetched o.inputs k.inputs)
    (houtputs : List.Forall₂ Operand.IsAllocated o.outputs k.outputs) {args : List Expr}
    (hcall : k.call = o.pureOutputs.map Operand.valueDeclaration ++ [.eval (.callNamed o.function args)])
    {p : Operand} (hp : p ∈ o.operands) : (blocksOf k.computation).flatten.count (Names.value ⟨p.name⟩) = 1 := by
  have hdeclared : declaredIn k.computation =
      declaredIn (k.inputs.flatten ++ o.pureOutputs.map Operand.valueDeclaration) ++ declaredIn k.outputs.flatten := by
    have hnone : declaredIn [.eval (.callNamed o.function args)] = [] := rfl
    rw [Kernel.computation, hcall, ← List.append_assoc, declaredIn_append, declaredIn_append _ [Stmt.eval _], hnone,
      List.append_nil]
  have hsetup : Stmt.allBlocks k.call = [] := by
    rw [hcall]
    apply Stmt.allBlocks_eq_nil
    rw [List.forall_mem_append, List.forall_mem_map]
    exact ⟨fun _ _ => rfl, List.forall_mem_singleton.mpr rfl⟩
  have hinside : Names.value ⟨p.name⟩ ∉ (Stmt.allBlocks k.computation).flatten := by
    intro hmem
    obtain ⟨block, hblock, hmem⟩ := List.mem_flatten.mp hmem
    rw [Kernel.computation, Stmt.allBlocks_append, Stmt.allBlocks_append, hsetup, List.append_nil] at hblock
    exact value_not_mem_blocks hinputs houtputs p.name (List.mem_append.mp hblock) hmem
  rw [blocksOf, List.flatten_cons, List.count_append, List.count_eq_zero.mpr hinside, hdeclared, List.count_append,
    count_value_before hflaw hinputs hp, List.count_eq_zero.mpr (value_not_mem_outputs houtputs p.name)]

/-- Items that are related to sections together with their positions are related to them without. -/
theorem forall₂_of_zipIdx {R' : Operand × Nat → List Stmt → Prop} {R : Operand → List Stmt → Prop}
    (hR : ∀ x stmts, R' x stmts → R x.1 stmts) {ps : List Operand} {sections : List (List Stmt)}
    (h : List.Forall₂ R' ps.zipIdx sections) : List.Forall₂ R ps sections := by
  have hoperands : ps = ps.zipIdx.map Prod.fst := (List.zipIdx_map_fst 0 ps).symm
  rw [hoperands]
  exact List.forall₂_map_left_iff.mpr (h.imp hR)

/-- The sections of a kernel: the statements for its inputs, the values of its pure outputs and the call, and the
statements for its outputs. -/
theorem sections_of_kernel {options : RenderOptions} {k : Kernel} (h : (o.kernel options).outcome = .ok k) :
    List.Forall₂ Operand.IsFetched o.inputs k.inputs ∧ List.Forall₂ Operand.IsAllocated o.outputs k.outputs ∧
      k.call = o.pureOutputs.map Operand.valueDeclaration ++
        [.eval (.callNamed o.function ((sortBy Prod.fst o.arguments).map fun x => .name x.2))] := by
  obtain ⟨_, hinputs, houtputs, _, hcall⟩ := kernel_eq_ok h
  refine ⟨forall₂_of_zipIdx (fun x stmts hx => ⟨x.2, hx⟩) hinputs,
    forall₂_of_zipIdx (fun x stmts hx => ⟨x.2, hx⟩) houtputs, ?_⟩
  rw [hcall, callStatements, List.map_map]
  rfl

/-- The computation of a kernel whose operator has no flaw declares each identifier before it is used, and none twice
for one operand in a block. -/
theorem isScoped_of_kernel {options : RenderOptions} {k : Kernel} (hflaw : o.flaw? = none)
    (h : (o.kernel options).outcome = .ok k) :
    k.IsScoped o (o.pureOutputs.map Operand.valueDeclaration)
      ((sortBy Prod.fst o.arguments).map fun x => .name x.2) := by
  obtain ⟨hfetched, hallocated, hcall⟩ := sections_of_kernel h
  exact
    { called := hcall
      sections := ⟨hfetched.length_eq.symm, List.length_map _, hallocated.length_eq.symm⟩
      resolved := isResolved_computation hflaw hfetched hallocated
      passed := fun p hp => List.mem_map.mpr ⟨(p.id, p.name ++ "_cv"), (sortBy_perm _ _).mem_iff.mpr
        (List.mem_append_left _ (List.mem_map.mpr ⟨p, hp, rfl⟩)), rfl⟩
      declared_once := by
        intro text htext hidentifier
        obtain ⟨x, hx, hname⟩ := List.mem_map.mp htext
        cases hname
        obtain ⟨p, hp, hvalue⟩ := exists_value_of_argument ((sortBy_perm _ _).mem_iff.mp hx) hidentifier
        rw [hvalue]
        exact ⟨count_value_before hflaw hfetched hp, count_value_computation hflaw hfetched hallocated hcall hp⟩
      distinct := by
        intro p hp
        obtain ⟨parts, hparts, hdeclares⟩ := declares_statementsOf hflaw hfetched hallocated hp
        exact hdeclares.nodup hparts }

/-- The source text of an operator without a flaw is that of a kernel whose computation declares each identifier
before it is used, each value that the user's function is called with once, and no name twice for one operand in a
block, under every setting. -/
theorem render_scoped {options : RenderOptions} {text : String} (hflaw : o.flaw? = none)
    (h : (o.render options).outcome = .ok text) :
    ∃ k : Kernel, (o.kernel options).outcome = .ok k ∧ k.text = text ∧
      ∃ setup args, k.IsScoped o setup args := by
  obtain ⟨k, hk, h⟩ := Traced.outcome_bind_eq_ok.mp h
  exact ⟨k, hk, Except.ok.inj h, _, _, isScoped_of_kernel hflaw hk⟩

/-- The kernel of the blend, which has an operand of each role, is of this kind. -/
theorem render_scoped_blend :
    blend.flaw? = none ∧ ∃ k : Kernel, (blend.kernel .default).outcome = .ok k ∧
      (blend.render .default).outcome = .ok k.text ∧ ∃ setup args, k.IsScoped blend setup args := by
  have hflaw : blend.flaw? = none := by rfl
  obtain ⟨text, hrender⟩ := except_exists_of_isOk (e := (blend.render .default).outcome) (by rfl)
  obtain ⟨k, hk, htext, hscoped⟩ := render_scoped hflaw hrender
  exact ⟨hflaw, k, hk, hrender.trans (congrArg Except.ok htext.symm), hscoped⟩

end Operator

end TensorBridge
