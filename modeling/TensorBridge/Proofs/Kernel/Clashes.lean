import TensorBridge.Proofs.Kernel.Scopes

/-!
# Declarations of different operands

The statements for the operands stand next to each other in one block. Here each declaration of a computation is listed
with the operand that it belongs to, block by block. Two operands declare one name in one block in a single case: an
operand that is a vector of matrices names the extents of its blocks as another operand, that is a matrix and has the
name of the first with the ending of a block, names its own extents.
-/

namespace TensorBridge

open Conversion

/-! ## Declarations with their operands -/

/-- The sections of a kernel's computation that belong to operands, each with its operand, in order. -/
def Kernel.sections (k : Kernel) (o : Operator) : List (Operand × List Stmt) :=
  o.inputs.zip k.inputs ++ o.pureOutputs.zip ((o.pureOutputs.map Operand.valueDeclaration).map fun s => [s]) ++
    o.outputs.zip k.outputs

/-- What some sections declare, block by block, each variable with the owner of its section. The sections share the
block that they stand in, which comes first; the blocks inside belong to one section each. -/
def ownedBlocks {α : Type} (sections : List (α × List Stmt)) : List (List (α × String)) :=
  (sections.flatMap fun x => (declaredIn x.2).map (x.1, ·)) ::
    sections.flatMap fun x => (Stmt.allBlocks x.2).map fun block => block.map (x.1, ·)

/-- Whether two owners declare a name in one block. -/
def BothDeclare {α : Type} (sections : List (α × List Stmt)) (a b : α) (name : String) : Prop :=
  ∃ block ∈ ownedBlocks sections, (a, name) ∈ block ∧ (b, name) ∈ block

section Owned

variable {α : Type} {sections : List (α × List Stmt)}

/-- Without the owners, these are the blocks of the statements. -/
theorem map_snd_ownedBlocks (sections : List (α × List Stmt)) :
    (ownedBlocks sections).map (List.map Prod.snd) = blocksOf (sections.map Prod.snd).flatten := by
  have hforget (a : α) (names : List String) : (names.map (a, ·)).map Prod.snd = names := by
    rw [List.map_map]
    exact List.map_id names
  have hblocks (a : α) (blocks : List (List String)) :
      (blocks.map fun block => block.map (a, ·)).map (List.map Prod.snd) = blocks := by
    rw [List.map_map]
    exact (List.map_congr_left fun block _ => hforget a block).trans (List.map_id blocks)
  rw [ownedBlocks, blocksOf, List.map_cons, List.cons.injEq]
  induction sections with
  | nil => exact ⟨rfl, rfl⟩
  | cons x rest ih =>
    rw [List.flatMap_cons, List.map_append, hforget, ih.1, List.flatMap_cons, List.map_append, hblocks, ih.2,
      List.map_cons, List.flatten_cons, declaredIn_append, Stmt.allBlocks_append]
    exact ⟨rfl, rfl⟩

/-- The variables of an owner in the block that the sections share. -/
theorem mem_outer_iff {a : α} {name : String} :
    ((a, name) ∈ sections.flatMap fun x => (declaredIn x.2).map (x.1, ·)) ↔
      ∃ stmts, (a, stmts) ∈ sections ∧ name ∈ declaredIn stmts := by
  rw [List.mem_flatMap]
  constructor
  · rintro ⟨⟨b, stmts⟩, hmem, hdeclared⟩
    obtain ⟨_, hname, heq⟩ := List.mem_map.mp hdeclared
    cases heq
    exact ⟨stmts, hmem, hname⟩
  · rintro ⟨stmts, hmem, hname⟩
    exact ⟨(a, stmts), hmem, List.mem_map_of_mem hname⟩

/-- Different owners meet nowhere but in the block that the sections share. -/
theorem bothDeclare_iff {a b : α} (hne : a ≠ b) {name : String} :
    BothDeclare sections a b name ↔
      (∃ stmts, (a, stmts) ∈ sections ∧ name ∈ declaredIn stmts) ∧
        ∃ stmts, (b, stmts) ∈ sections ∧ name ∈ declaredIn stmts := by
  rw [BothDeclare, ownedBlocks, List.exists_mem_cons_iff, mem_outer_iff, mem_outer_iff, or_iff_left]
  rintro ⟨block, hblock, ha, hb⟩
  obtain ⟨x, _, hblock⟩ := List.mem_flatMap.mp hblock
  obtain ⟨names, _, rfl⟩ := List.mem_map.mp hblock
  obtain ⟨_, _, ha⟩ := List.mem_map.mp ha
  obtain ⟨_, _, hb⟩ := List.mem_map.mp hb
  exact hne ((congrArg Prod.fst ha).symm.trans (congrArg Prod.fst hb))

end Owned

/-! ## The variables of an operand -/

namespace Operand

/-- The parts that an operand declares outside all loops. -/
def outerParts (p : Operand) : List Part :=
  (if p.role.isInput then inputParts p.shape else [.value]) ++ if p.role.isOutput then [.tensorOut] else []

/-- They are those of its conversions, and the value if no conversion declares it. -/
theorem mem_outerParts_iff {p : Operand} {part : Part} :
    part ∈ p.outerParts ↔ (p.role.isInput = true ∧ part ∈ inputParts p.shape ∨ p.role = .output ∧ part ∈ [Part.value]) ∨
      p.role.isOutput = true ∧ part ∈ [Part.tensorOut] := by
  rw [outerParts, List.mem_append]
  cases p.role <;> simp [Role.isInput, Role.isOutput]

/-- An operand that is read into matrices whose type does not fix their sizes, in some layout. -/
def IsReadAs (p : Operand) (kind : ShapeKind) : Prop :=
  p.role.isInput = true ∧ p.shape.kind = kind ∧ p.shape.element.container = .mat

/-- The layouts for which an operand declares extents outside all loops: a matrix those of its value, a vector of
matrices those of a block. -/
theorem extents_mem_outerParts_iff {p : Operand} {part : Part} {kind : ShapeKind}
    (h : part = .shape ∧ kind = .matrix ∨ part = .blockShape ∧ kind = .vectorOfMatrix) :
    part ∈ p.outerParts ↔ p.IsReadAs kind := by
  have hvalue : part ∈ valueParts p.shape ↔ p.shape.kind = kind ∧ p.shape.element.container = .mat := by
    unfold valueParts
    rcases h with ⟨rfl, rfl⟩ | ⟨rfl, rfl⟩ <;>
      cases p.shape.kind <;> cases p.shape.element.container <;> decide
  have hinput : part ∈ inputParts p.shape ↔ part ∈ valueParts p.shape := by
    rcases h with ⟨rfl, _⟩ | ⟨rfl, _⟩ <;> simp [inputParts]
  rw [mem_outerParts_iff, hinput, hvalue, IsReadAs]
  rcases h with ⟨rfl, _⟩ | ⟨rfl, _⟩ <;> simp

/-- An operand that is read as a vector of matrices, and another one that is read as a matrix and named like a block of
the first: both declare extents, under one name. -/
structure SharesExtents (p q : Operand) (name : String) : Prop where
  blocks : p.IsReadAs .vectorOfMatrix
  matrix : q.IsReadAs .matrix
  named : q.name = p.name ++ "_mat"
  declared : name = p.name ++ "_mat_shape"

/-- Different operands share one of their variables outside all loops if they share their extents. -/
theorem shares_part_iff {p q : Operand} (hne : p.name ≠ q.name) {name : String} :
    ((∃ part ∈ p.outerParts, Names.part ⟨p.name⟩ part = name) ∧
        ∃ part ∈ q.outerParts, Names.part ⟨q.name⟩ part = name) ↔
      p.SharesExtents q name ∨ q.SharesExtents p name := by
  have hmatrix (p : Operand) : .shape ∈ p.outerParts ↔ p.IsReadAs .matrix :=
    extents_mem_outerParts_iff (.inl ⟨rfl, rfl⟩)
  have hblocks (p : Operand) : .blockShape ∈ p.outerParts ↔ p.IsReadAs .vectorOfMatrix :=
    extents_mem_outerParts_iff (.inr ⟨rfl, rfl⟩)
  constructor
  · rintro ⟨⟨part, hpart, rfl⟩, part', hpart', heq⟩
    rcases Names.part_eq_part_iff.mp heq.symm with ⟨hsame, _⟩ | ⟨hbase, rfl, rfl⟩ | ⟨hbase, rfl, rfl⟩
    · exact absurd (congrArg Names.base hsame) hne
    · exact .inr ⟨(hblocks q).mp hpart', (hmatrix p).mp hpart, hbase, heq.symm⟩
    · exact .inl ⟨(hblocks p).mp hpart, (hmatrix q).mp hpart', hbase, rfl⟩
  · have hshared {p q : Operand} (h : p.SharesExtents q name) :
        (∃ part ∈ p.outerParts, Names.part ⟨p.name⟩ part = name) ∧
          ∃ part ∈ q.outerParts, Names.part ⟨q.name⟩ part = name := by
      have hname : Names.part ⟨p.name⟩ .blockShape = name := h.declared.symm
      have hmeets : Names.part ⟨q.name⟩ .shape = Names.part ⟨p.name⟩ .blockShape :=
        Names.part_eq_part_iff.mpr (.inr (.inl ⟨h.named, rfl, rfl⟩))
      exact ⟨⟨.blockShape, (hblocks p).mpr h.blocks, hname⟩, .shape, (hmatrix q).mpr h.matrix, hmeets.trans hname⟩
    rintro (h | h)
    · exact hshared h
    · exact (hshared h).symm

end Operand

/-! ## Operators -/

namespace Operator

variable {o : Operator} {k : Kernel}

/-- The inputs are the operands that are read from tensors. -/
theorem mem_inputs_iff {p : Operand} : p ∈ o.inputs ↔ p ∈ o.operands ∧ p.role.isInput = true := by
  rw [inputs, (sortBy_perm Operand.id _).mem_iff, List.mem_filter]

/-- The outputs are the operands that are written to tensors. -/
theorem mem_outputs_iff {p : Operand} : p ∈ o.outputs ↔ p ∈ o.operands ∧ p.role.isOutput = true := by
  rw [outputs, (sortBy_perm Operand.id _).mem_iff, List.mem_filter]

/-- The pure outputs are the operands that are only written. -/
theorem mem_pureOutputs_iff {p : Operand} : p ∈ o.pureOutputs ↔ p ∈ o.operands ∧ p.role = .output := by
  rw [pureOutputs, List.mem_filter, (sortBy_perm Operand.id _).mem_iff, beq_iff_eq]

/-- What an operand declares in its section, where each section of a list declares the given parts of its operand. -/
theorem exists_section_iff {R : Operand → List Stmt → Prop} {ps : List Operand} {sections : List (List Stmt)}
    (h : List.Forall₂ R ps sections) (p : Operand) (parts : List Part) (name : String)
    (hR : ∀ stmts, R p stmts → declaredIn stmts = parts.map (Names.part ⟨p.name⟩)) :
    (∃ stmts, (p, stmts) ∈ ps.zip sections ∧ name ∈ declaredIn stmts) ↔
      p ∈ ps ∧ ∃ part ∈ parts, Names.part ⟨p.name⟩ part = name := by
  rw [← List.mem_map]
  constructor
  · rintro ⟨stmts, hmem, hname⟩
    rw [hR stmts (List.forall₂_zip h hmem)] at hname
    exact ⟨(List.of_mem_zip hmem).1, hname⟩
  · rintro ⟨hp, hname⟩
    obtain ⟨stmts, hmem⟩ := exists_mem_zip h hp
    rw [← hR stmts (List.forall₂_zip h hmem)] at hname
    exact ⟨stmts, hmem, hname⟩

/-- What the sections of an operand declare outside all loops. -/
theorem mem_declaredIn_sections_iff (hinputs : List.Forall₂ Operand.IsFetched o.inputs k.inputs)
    (houtputs : List.Forall₂ Operand.IsAllocated o.outputs k.outputs) {p : Operand} {name : String} :
    (∃ stmts, (p, stmts) ∈ k.sections o ∧ name ∈ declaredIn stmts) ↔
      p ∈ o.operands ∧ ∃ part ∈ p.outerParts, Names.part ⟨p.name⟩ part = name := by
  have hin := exists_section_iff hinputs p (inputParts p.shape) name
    fun stmts ⟨_, h⟩ => (declares_inputStatements h).outside
  have hpure := exists_section_iff (forall₂_valueDeclaration o) p [.value] name
    fun stmts h => h ▸ rfl
  have hout := exists_section_iff houtputs p [.tensorOut] name
    fun stmts ⟨_, h⟩ => (declares_outputStatements h).outside
  rw [mem_inputs_iff] at hin
  rw [mem_pureOutputs_iff] at hpure
  rw [mem_outputs_iff] at hout
  simp only [Kernel.sections, List.mem_append, or_and_right, exists_or, hin, hpure, hout, Operand.mem_outerParts_iff]
  simp only [and_assoc, ← and_or_left, exists_and_left]

/-- The sections are all of the computation, but for the call, which declares nothing. -/
theorem map_snd_ownedBlocks_sections {options : RenderOptions} (h : (o.kernel options).outcome = .ok k) :
    (ownedBlocks (k.sections o)).map (List.map Prod.snd) = blocksOf k.computation := by
  obtain ⟨hinputs, houtputs, hcall⟩ := sections_of_kernel h
  have hnone (call : Expr) : declaredIn [.eval call] = [] ∧ Stmt.allBlocks [.eval call] = [] := ⟨rfl, rfl⟩
  rw [map_snd_ownedBlocks, Kernel.sections, List.map_append, List.map_append,
    List.map_snd_zip (Nat.le_of_eq hinputs.length_eq.symm),
    List.map_snd_zip (Nat.le_of_eq (forall₂_valueDeclaration o).length_eq.symm),
    List.map_snd_zip (Nat.le_of_eq houtputs.length_eq.symm), List.flatten_append, List.flatten_append,
    ← List.flatMap_def, List.flatMap_singleton', Kernel.computation, hcall, ← List.append_assoc]
  simp only [blocksOf, declaredIn_append, Stmt.allBlocks_append, hnone, List.append_nil]

/-- Two operands declare one name in one block if they share their extents. -/
theorem bothDeclare_sections_iff {options : RenderOptions} (hflaw : o.flaw? = none)
    (h : (o.kernel options).outcome = .ok k) {p q : Operand} (hne : p ≠ q) {name : String} :
    BothDeclare (k.sections o) p q name ↔
      (p ∈ o.operands ∧ q ∈ o.operands) ∧ (p.SharesExtents q name ∨ q.SharesExtents p name) := by
  obtain ⟨hinputs, houtputs, _⟩ := sections_of_kernel h
  rw [bothDeclare_iff hne, mem_declaredIn_sections_iff hinputs houtputs, mem_declaredIn_sections_iff hinputs houtputs,
    and_and_and_comm]
  refine and_congr_right fun ⟨hp, hq⟩ => Operand.shares_part_iff fun hname => hne ?_
  exact List.inj_on_of_nodup_map (operandNames_nodup hflaw) hp hq hname

/-- Two operands of a rendered operator without a flaw declare one name in one block exactly if one of them is read as a
vector of matrices, the other one as a matrix, and the other one is named like a block of the first. -/
theorem render_bothDeclare_iff {options : RenderOptions} {text : String} (hflaw : o.flaw? = none)
    (h : (o.render options).outcome = .ok text) :
    ∃ k : Kernel, (o.kernel options).outcome = .ok k ∧ k.text = text ∧
      (ownedBlocks (k.sections o)).map (List.map Prod.snd) = blocksOf k.computation ∧
      ∀ p q : Operand, p ≠ q → ∀ name, BothDeclare (k.sections o) p q name ↔
        (p ∈ o.operands ∧ q ∈ o.operands) ∧ (p.SharesExtents q name ∨ q.SharesExtents p name) := by
  obtain ⟨k, hk, h⟩ := Traced.outcome_bind_eq_ok.mp h
  exact ⟨k, hk, Except.ok.inj h, map_snd_ownedBlocks_sections hk,
    fun p q hne name => bothDeclare_sections_iff hflaw hk hne⟩

/-- The blend has no such operands: its kernel declares no name in one block for two of them. -/
theorem render_bothDeclare_iff_blend :
    blend.flaw? = none ∧ ∃ k : Kernel, (blend.kernel .default).outcome = .ok k ∧
      (blend.render .default).outcome = .ok k.text ∧
      ∀ p q : Operand, p ≠ q → ∀ name, ¬ BothDeclare (k.sections blend) p q name := by
  have hflaw : blend.flaw? = none := by rfl
  obtain ⟨text, hrender⟩ := except_exists_of_isOk (e := (blend.render .default).outcome) (by rfl)
  obtain ⟨k, hk, htext, _, hclash⟩ := render_bothDeclare_iff hflaw hrender
  refine ⟨hflaw, k, hk, hrender.trans (congrArg Except.ok htext.symm), fun p q hne name hboth => ?_⟩
  obtain ⟨⟨hp, hq⟩, hshared⟩ := (hclash p q hne name).mp hboth
  have hnone : ∀ p ∈ blend.operands, ¬ p.IsReadAs .vectorOfMatrix := by
    rintro p hp ⟨_, hkind, _⟩
    revert p
    decide
  rcases hshared with h | h
  · exact hnone p hp h.blocks
  · exact hnone q hq h.blocks

/-- The specification of an operator with a vector of images and one more image, which is named like a block of the
first. -/
def collageSpec : Value :=
  .object [("inputs", .object [
    ("a", .object [("id", .int 0), ("shape", .array [.string "vector:none", .string "none", .string "CV_8U"])]),
    ("a_mat", .object [("id", .int 1), ("shape", .array [.string "none", .string "CV_8U"])])])]

/-- The operator of that specification. -/
def collage : Operator :=
  { name := "Scale"
    function := "scale"
    operands := [
      ⟨0, "a", .input, .array [.string "vector:none", .string "none", .string "CV_8U"],
        ⟨[none], [none], .matrix .u8 none .mat false⟩⟩,
      ⟨1, "a_mat", .input, .array [.string "none", .string "CV_8U"], ⟨[], [none], .matrix .u8 none .mat false⟩⟩]
    attributes := []
    device := .string defaultDevice }

/-- The operator is read without an error and rendered, but its operands both declare one name in one block. -/
theorem collage_bothDeclare :
    (read collageSpec "scale").outcome = .ok collage ∧ collage.flaw? = none ∧
      ∃ k : Kernel, (collage.kernel .default).outcome = .ok k ∧ (collage.render .default).outcome = .ok k.text ∧
        (ownedBlocks (k.sections collage)).map (List.map Prod.snd) = blocksOf k.computation ∧
        ∃ p ∈ collage.operands, ∃ q ∈ collage.operands, p ≠ q ∧
          BothDeclare (k.sections collage) p q "a_mat_shape" := by
  have hflaw : collage.flaw? = none := by rfl
  obtain ⟨text, hrender⟩ := except_exists_of_isOk (e := (collage.render .default).outcome) (by rfl)
  obtain ⟨k, hk, htext⟩ := Traced.outcome_bind_eq_ok.mp hrender
  refine ⟨by rfl, hflaw, k, hk, hrender.trans htext.symm, map_snd_ownedBlocks_sections hk,
    _, List.mem_cons_self, _, List.mem_cons_of_mem _ (List.mem_singleton_self _), ?_⟩
  have hne {p q : Operand} (h : p.name ≠ q.name) : p ≠ q := fun heq => h (congrArg Operand.name heq)
  refine ⟨hne (by decide), (bothDeclare_sections_iff hflaw hk (hne (by decide))).mpr ⟨⟨?_, ?_⟩, .inl ?_⟩⟩
  · exact List.mem_cons_self
  · exact List.mem_cons_of_mem _ (List.mem_singleton_self _)
  · exact ⟨⟨rfl, rfl, rfl⟩, ⟨rfl, rfl, rfl⟩, rfl, rfl⟩

end Operator

end TensorBridge
