import TensorBridge.Command.Run
import TensorBridge.Proofs.Files.Changes
import TensorBridge.Proofs.Text.Outputs

/-!
# Rendering several specification files

The specification files of a run are worked off one by one, each on the files that the ones before it have left. A file
is scaffolded if the source text of its kernel is complete, the directory for it can be made, and the text is written.
The run goes on as long as files are scaffolded, and reports each of them; at the first one that is refused it ends,
with the files as they were before it. Whatever the run comes to, the log has the records of the files up to there.
-/

namespace TensorBridge

/-! ## One specification file -/

section Scaffold

variable (directory : Option String) (options : RenderOptions)

/-- The source text of the kernel that a specification file describes. -/
def kernelSource (t : FileTree) (spec : String) : Except Error String :=
  ((Operator.load t spec).bind (·.render options)).outcome

/-- The records of reading a specification file and rendering its kernel. -/
def kernelRecords (t : FileTree) (spec : String) : List Record :=
  ((Operator.load t spec).bind (·.render options)).records

/-- The records of specification files that are scaffolded one after the other: behind those of each kernel stands the
note that it is written. -/
def scaffoldRecords : FileTree → List String → List Record
  | _, [] => []
  | t, spec :: rest =>
    kernelRecords options t spec ++ writtenRecord (kernelPath t spec directory) ::
      scaffoldRecords (writeKernel t spec directory options).files rest

/-- A specification file is scaffolded: the source text of its kernel is complete, the directory for it is made as far
as it is not there, and the text is written. -/
def Scaffolds (t : FileTree) (spec : String) (t' : FileTree) : Prop :=
  ∃ source made, kernelSource options t spec = .ok source ∧
    t.makeDirectories (kernelDirectory t spec directory) = .ok made ∧
      made.write (kernelPath t spec directory) source = ⟨t', .ok ()⟩

/-- Specification files are scaffolded one after the other. -/
inductive ScaffoldsAll : FileTree → List String → FileTree → Prop
  | nil (t : FileTree) : ScaffoldsAll t [] t
  | cons {t t' t'' : FileTree} {spec : String} {rest : List String} (first : Scaffolds directory options t spec t')
    (others : ScaffoldsAll t' rest t'') : ScaffoldsAll t (spec :: rest) t''

/-- The report of a specification file: its path and that of its kernel. -/
def kernelLine (t : FileTree) (spec : String) : String := spec ++ " -> " ++ kernelPath t spec directory

/-- Nothing but a refusal keeps a specification file from being scaffolded and reported: no fault meets the reading and
rendering, and once the source text is complete, the directory is made, the text is written and the report has an
encoding. -/
structure IsUnhindered (t : FileTree) (spec : String) : Prop where
  judged : ∀ fault, kernelSource options t spec ≠ .error (.fault fault)
  written : ∀ source, kernelSource options t spec = .ok source →
    ∃ made, t.makeDirectories (kernelDirectory t spec directory) = .ok made ∧
      (made.write (kernelPath t spec directory) source).outcome = .ok ()
  reported : isEncodable (kernelLine directory t spec ++ "\n") = true

/-- A run over specification files stops at one of them: those before it are scaffolded, and it is refused on the files
that they leave. -/
structure StopsAt (t : FileTree) (specs done : List String) (spec : String) (t' : FileTree) (refusal : Refusal) :
    Prop where
  listed : ∃ rest, specs = done ++ spec :: rest
  scaffolded : ScaffoldsAll directory options t done t'
  refused : kernelSource options t' spec = .error (.refusal refusal)

/-- Each file of a run is unhindered when the run comes to it. -/
def AllUnhindered (t : FileTree) (specs : List String) : Prop :=
  ∀ done spec rest t', specs = done ++ spec :: rest → ScaffoldsAll directory options t done t' →
    IsUnhindered directory options t' spec

end Scaffold

variable {directory : Option String} {options : RenderOptions} {t t' t'' : FileTree} {spec : String}

/-- A file that is scaffolded has the source text of its kernel written to the place that the kernel's path leads to.
-/
theorem Scaffolds.writes (h : Scaffolds directory options t spec t') :
    ∃ source place, kernelSource options t spec = .ok source ∧
      t'.follow (kernelPath t spec directory) = .ok place ∧ t.Writes t' place source := by
  obtain ⟨source, made, hsource, hmade, hwrite⟩ := h
  obtain ⟨place, hplace, hwrites⟩ := FileTree.writes_of_write hwrite
  exact ⟨source, place, hsource, hwrites.keepsDirectories.follow hplace,
    hwrites.of_keeps (FileTree.keeps_makeDirectories hmade)⟩

/-- A file that is scaffolded leaves the working directory. -/
theorem Scaffolds.workingPlace_eq (h : Scaffolds directory options t spec t') : t'.workingPlace = t.workingPlace := by
  obtain ⟨_, _, _, _, hwrites⟩ := h.writes
  exact hwrites.workingPlace_eq

/-- The path of a kernel depends on the working directory alone. -/
theorem kernelPath_eq (h : t'.workingPlace = t.workingPlace) (spec : String) (directory : Option String) :
    kernelPath t' spec directory = kernelPath t spec directory := by
  rw [kernelPath, kernelPath, kernelDirectory, kernelDirectory, FileTree.workingPath, FileTree.workingPath, h]

/-- The report of a file depends on the working directory alone. -/
theorem kernelLine_eq (h : t'.workingPlace = t.workingPlace) (spec : String) :
    kernelLine directory t' spec = kernelLine directory t spec := by
  rw [kernelLine, kernelLine, kernelPath_eq h]

/-- An unhindered file is scaffolded or refused. -/
theorem IsUnhindered.scaffolds_or_refused (h : IsUnhindered directory options t spec) :
    (∃ t', Scaffolds directory options t spec t') ∨
      ∃ refusal, kernelSource options t spec = .error (.refusal refusal) := by
  cases hsource : kernelSource options t spec with
  | error e =>
    cases e with
    | refusal refusal => exact .inr ⟨refusal, rfl⟩
    | fault fault => exact absurd hsource (h.judged fault)
  | ok source =>
    obtain ⟨made, hmade, hwritten⟩ := h.written source hsource
    refine .inl ⟨(made.write (kernelPath t spec directory) source).files, source, made, hsource, hmade, ?_⟩
    rw [← hwritten]

/-- Without what has to be found first, nothing is attempted. -/
theorem Writing.after_of_error {α : Type} {first : Traced α} {e : Error} (h : first.outcome = .error e) (t : FileTree)
    (next : α → Writing) :
    (Writing.after t first next).files = t ∧ (Writing.after t first next).result = ⟨first.records, .error e⟩ := by
  rw [Writing.after, h, Traced.bind_of_error h]
  exact ⟨rfl, rfl⟩

/-- Once it is found, the attempt is made. -/
theorem Writing.after_of_ok {α : Type} {first : Traced α} {a : α} (h : first.outcome = .ok a) (t : FileTree)
    (next : α → Writing) :
    (Writing.after t first next).files = (next a).files ∧
      (Writing.after t first next).result = ⟨first.records ++ (next a).result.records, (next a).result.outcome⟩ := by
  rw [Writing.after, h, Traced.bind_of_ok h]
  exact ⟨rfl, rfl⟩

/-- A file without a source text leaves everything as it is, apart from the log. -/
theorem writeKernel_of_error {e : Error} (h : kernelSource options t spec = .error e) (directory : Option String) :
    (writeKernel t spec directory options).files = t ∧
      (writeKernel t spec directory options).result = ⟨kernelRecords options t spec, .error e⟩ :=
  Writing.after_of_error h t _

/-- A file that is scaffolded has been written. -/
theorem writeKernel_of_scaffolds (h : Scaffolds directory options t spec t') :
    (writeKernel t spec directory options).files = t' ∧
      ∃ source, (writeKernel t spec directory options).result =
        ⟨kernelRecords options t spec ++ [writtenRecord (kernelPath t spec directory)],
          .ok { path := kernelPath t spec directory, content := source }⟩ := by
  obtain ⟨source, made, hsource, hmade, hwrite⟩ := h
  have hmade' :
      (Traced.ofExcept ((t.makeDirectories (kernelDirectory t spec directory)).mapError Error.fault)).outcome =
        .ok made := by
    rw [hmade]
    rfl
  obtain ⟨hfiles, hresult⟩ := Writing.after_of_ok hsource t
    (writeInto t (kernelDirectory t spec directory) (kernelPath t spec directory))
  obtain ⟨hfiles', hresult'⟩ := Writing.after_of_ok hmade' t fun made =>
    { files := (made.write (kernelPath t spec directory) source).files
      result := do
        Traced.ofExcept ((made.write (kernelPath t spec directory) source).outcome.mapError .fault)
        Traced.record [writtenRecord (kernelPath t spec directory)]
        return { path := kernelPath t spec directory, content := source } }
  rw [hwrite] at hfiles' hresult'
  refine ⟨hfiles.trans hfiles', source, hresult.trans ?_⟩
  rw [writeInto, hresult']
  rfl

/-! ## A run -/

namespace ScaffoldsAll

/-- Files that are scaffolded leave the working directory. -/
theorem workingPlace_eq {specs : List String} (h : ScaffoldsAll directory options t specs t') :
    t'.workingPlace = t.workingPlace := by
  induction h with
  | nil => rfl
  | cons first _ ih => exact ih.trans first.workingPlace_eq

/-- Files are scaffolded if the first ones are, and the others on what these leave. -/
theorem append_iff {specs specs' : List String} :
    ScaffoldsAll directory options t (specs ++ specs') t'' ↔
      ∃ t', ScaffoldsAll directory options t specs t' ∧ ScaffoldsAll directory options t' specs' t'' := by
  constructor
  · intro h
    induction specs generalizing t with
    | nil => exact ⟨t, .nil t, h⟩
    | cons spec rest ih =>
      cases h with
      | cons first others =>
        obtain ⟨t', hrest, hothers⟩ := ih others
        exact ⟨t', .cons first hrest, hothers⟩
  · rintro ⟨t', h, hothers⟩
    induction h with
    | nil => exact hothers
    | cons first _ ih => exact .cons first (ih hothers)

/-- The reports of files that are unhindered and scaffolded have an encoding. -/
theorem reported {done : List String} (rest : List String)
    (hunhindered : AllUnhindered directory options t (done ++ rest)) (h : ScaffoldsAll directory options t done t') :
    ∀ spec ∈ done, isEncodable (kernelLine directory t spec ++ "\n") = true := by
  intro spec hspec
  obtain ⟨before, behind, rfl⟩ := List.append_of_mem hspec
  obtain ⟨t₁, hbefore, _⟩ := append_iff.mp h
  have hreported := (hunhindered before spec (behind ++ rest) t₁ (by simp) hbefore).reported
  rwa [kernelLine_eq hbefore.workingPlace_eq] at hreported

end ScaffoldsAll

/-- Unhindered files are all scaffolded, or the run stops at one of them. -/
theorem AllUnhindered.scaffolded_or_stops {specs : List String} (h : AllUnhindered directory options t specs) :
    (∃ t', ScaffoldsAll directory options t specs t') ∨
      ∃ done spec t' refusal, StopsAt directory options t specs done spec t' refusal := by
  induction specs generalizing t with
  | nil => exact .inl ⟨t, .nil t⟩
  | cons spec rest ih =>
    rcases (h [] spec rest t rfl (.nil t)).scaffolds_or_refused with ⟨t₁, hfirst⟩ | ⟨refusal, hrefused⟩
    · have hrest : AllUnhindered directory options t₁ rest := fun done spec' rest' t' heq hdone =>
        h (spec :: done) spec' rest' t' (congrArg (spec :: ·) heq) (.cons hfirst hdone)
      rcases ih hrest with ⟨t', hothers⟩ | ⟨done, spec', t', refusal, ⟨rest', heq⟩, hdone, hrefused⟩
      · exact .inl ⟨t', .cons hfirst hothers⟩
      · exact .inr ⟨spec :: done, spec', t', refusal, ⟨rest', congrArg (spec :: ·) heq⟩, .cons hfirst hdone, hrefused⟩
    · exact .inr ⟨[], spec, t, refusal, ⟨rest, rfl⟩, .nil t, hrefused⟩

/-- A run goes on behind a file that is scaffolded and reported. -/
theorem Command.renderAll_cons_of_scaffolds (h : Scaffolds directory options t spec t')
    (hline : isEncodable (kernelLine directory t spec ++ "\n") = true) (output : String) (records : List Record)
    (rest : List String) :
    renderAll directory options output records t (spec :: rest) =
      renderAll directory options (output ++ (kernelLine directory t spec ++ "\n"))
        (records ++ (kernelRecords options t spec ++ [writtenRecord (kernelPath t spec directory)])) t' rest := by
  obtain ⟨hfiles, source, hresult⟩ := writeKernel_of_scaffolds h
  rw [kernelLine] at hline ⊢
  rw [renderAll, hresult, hfiles]
  dsimp only
  rw [if_pos hline]

/-- A run goes on behind files that are scaffolded and reported. -/
theorem Command.renderAll_append {done : List String} (h : ScaffoldsAll directory options t done t')
    (hlines : ∀ spec ∈ done, isEncodable (kernelLine directory t spec ++ "\n") = true) (output : String)
    (records : List Record) (rest : List String) :
    renderAll directory options output records t (done ++ rest) =
      renderAll directory options (output ++ joinLines (done.map (kernelLine directory t)))
        (records ++ scaffoldRecords directory options t done) t' rest := by
  induction h generalizing output records with
  | nil t =>
    rw [List.map_nil, joinLines_nil, String.append_empty, List.nil_append, scaffoldRecords, List.append_nil]
  | @cons t t₁ t₂ spec done first others ih =>
    obtain ⟨hline, hlines⟩ := List.forall_mem_cons.mp hlines
    have hkept : kernelLine directory t₁ = kernelLine directory t := funext (kernelLine_eq first.workingPlace_eq)
    have hfiles : (writeKernel t spec directory options).files = t₁ := (writeKernel_of_scaffolds first).1
    rw [← hkept] at hlines
    rw [List.cons_append, renderAll_cons_of_scaffolds first hline, ih hlines, hkept, List.map_cons, joinLines_cons,
      String.append_assoc, scaffoldRecords, hfiles, List.append_assoc, List.append_assoc, List.singleton_append]

/-- A run ends at a file that is refused, with everything as it is. -/
theorem Command.renderAll_cons_of_refused {refusal : Refusal}
    (h : kernelSource options t spec = .error (.refusal refusal)) (output : String) (records : List Record)
    (rest : List String) :
    renderAll directory options output records t (spec :: rest) =
      .ended t (records ++ kernelRecords options t spec)
        (CommandRun.endingBy output (spec ++ ": ") (.refusal refusal)) := by
  obtain ⟨hfiles, hresult⟩ := writeKernel_of_error h directory
  rw [renderAll, hresult, hfiles]

/-- The reports of files are put out without their control sequences. -/
theorem CommandRun.endingWith_kernelLines {specs : List String}
    (h : ∀ spec ∈ specs, isEncodable (kernelLine directory t spec ++ "\n") = true) (exitCode : Nat) (errors : String) :
    endingWith exitCode (joinLines (specs.map (kernelLine directory t))) errors =
      .finished exitCode (joinLines (specs.map fun spec => withoutControl (kernelLine directory t spec)))
        (escapeHalves (withoutControl errors)) := by
  rw [endingWith, if_pos (isEncodable_joinLines (List.forall_mem_map.mpr h)), withoutControl_joinLines, List.map_map]
  rfl

/-- A run whose files are all scaffolded and reported ends without an error. -/
theorem Command.renderAll_of_scaffoldsAll {specs : List String} (h : ScaffoldsAll directory options t specs t')
    (hlines : ∀ spec ∈ specs, isEncodable (kernelLine directory t spec ++ "\n") = true) :
    renderAll directory options "" [] t specs =
      .ended t' (scaffoldRecords directory options t specs)
        (.finished 0 (joinLines (specs.map fun spec => withoutControl (kernelLine directory t spec))) "") := by
  have hdone := renderAll_append h hlines "" [] []
  rw [List.append_nil, String.empty_append, List.nil_append] at hdone
  rw [hdone, renderAll, CommandRun.endingWith_kernelLines hlines]
  rfl

/-! ## The command -/

section Command

variable {files : FileTree} {words specs : List String}

/-- A request for kernels comes to its work if its specification files are there and its directory is no text. -/
theorem Command.endingAtPaths?_render (hspecs : ∀ spec ∈ specs, ∃ content, files.read spec = .ok content)
    (hdirectory : ∀ path ∈ directory, FileTree.textFault? path = none ∧
      ∀ content, files.find? path ≠ some (.text content)) :
    (Command.render specs directory options).endingAtPaths? files = none := by
  have hdirectory' : directory.bind (endingAt? files fun node => !endingAtPaths?.isText node) = none := by
    cases directory with
    | none => rfl
    | some path =>
      obtain ⟨hpath, hnone⟩ := hdirectory path rfl
      rw [Option.bind_some, endingAt?, hpath]
      refine if_pos ?_
      cases hnode : files.find? path with
      | none => rfl
      | some node =>
        cases node with
        | directory => rfl
        | text content => exact absurd hnode (hnone content)
  have hspecs' : specs.findSome? (endingAt? files endingAtPaths?.isText) = none := by
    rw [List.findSome?_eq_none_iff]
    intro spec hspec
    obtain ⟨content, hread⟩ := hspecs spec hspec
    obtain ⟨hpath, held, hnode, _⟩ := FileTree.read_eq_ok_iff_find?.mp hread
    rw [endingAt?, hpath, hnode]
    rfl
  rw [endingAtPaths?, hdirectory', hspecs']
  rfl

/-- A run of the command for kernels, on specification files that are there and into a directory that is no text, where
nothing but a refusal can stop it. If all files are scaffolded, it ends without an error: it reports each file on a line
of its own, and leaves the files as the last one has left them. Otherwise it stops at the first file that is refused:
it reports those before it, names the file and the refusal in one line of errors, and leaves the files as they were
when it came to it. The lines are put out without control sequences, and halves in a line of errors are escaped. In
front of that line, the output for errors has the lines of the log for the files up to there, as far as its threshold
lets them through, and it has nothing else. -/
theorem runWords_render (hwords : Command.ofWords words = some (.render specs directory options))
    (hspecs : ∀ spec ∈ specs, ∃ content, files.read spec = .ok content)
    (hdirectory : ∀ path ∈ directory, FileTree.textFault? path = none ∧
      ∀ content, files.find? path ≠ some (.text content))
    (hunhindered : AllUnhindered directory options files specs) :
    (∀ t, ScaffoldsAll directory options files specs t →
      (runWords files words).ending =
          .finished 0 (joinLines (specs.map fun spec => withoutControl (kernelLine directory files spec))) "" ∧
        (∀ threshold, (runWords files words).errorText threshold =
          escapeHalves (logText threshold (scaffoldRecords directory options files specs))) ∧
        (runWords files words).files = t) ∧
    (∀ done spec t refusal, StopsAt directory options files specs done spec t refusal →
      (runWords files words).ending =
          .finished 1 (joinLines (done.map fun spec => withoutControl (kernelLine directory files spec)))
            (escapeHalves (withoutControl ("Error: " ++ spec ++ ": " ++ refusal.message) ++ "\n")) ∧
        (∀ threshold, (runWords files words).errorText threshold =
          escapeHalves (logText threshold
              (scaffoldRecords directory options files done ++ kernelRecords options t spec)) ++
            escapeHalves (withoutControl ("Error: " ++ spec ++ ": " ++ refusal.message) ++ "\n")) ∧
        (runWords files words).files = t) ∧
    ((∃ t, ScaffoldsAll directory options files specs t) ∨
      ∃ done spec t refusal, StopsAt directory options files specs done spec t refusal) := by
  have hrun : runWords files words = Command.renderAll directory options "" [] files specs := by
    rw [runWords, hwords]
    dsimp only
    rw [Command.run, Command.endingAtPaths?_render hspecs hdirectory]
    rfl
  refine ⟨fun t hall => ?_, fun done spec t refusal hstops => ?_, hunhindered.scaffolded_or_stops⟩
  · have hlines := ScaffoldsAll.reported [] (by rwa [List.append_nil]) hall
    rw [hrun, Command.renderAll_of_scaffoldsAll hall hlines]
    exact ⟨rfl, fun _ => String.append_empty, rfl⟩
  · obtain ⟨⟨rest, rfl⟩, hdone, hrefused⟩ := hstops
    have hlines := ScaffoldsAll.reported (spec :: rest) hunhindered hdone
    rw [hrun, Command.renderAll_append hdone hlines, Command.renderAll_cons_of_refused hrefused, String.empty_append,
      List.nil_append, CommandRun.endingBy, CommandRun.endingWith_kernelLines hlines, withoutControl_lastLine,
      ← String.append_assoc]
    exact ⟨rfl, fun _ => rfl, rfl⟩

end Command

/-! ## Operators without operands -/

/-- What stands in no piece, and is no blank and no line break, does not stand in the section of the pieces. -/
theorem not_mem_sectionText {c : Char} (hbreak : c ≠ '\n') (hblank : c ≠ ' ') {pieces : List String}
    (h : ∀ piece ∈ pieces, c ∉ piece.toList) (level : Nat) : c ∉ (sectionText pieces level).toList :=
  not_mem_indent hblank (not_mem_unlines hbreak fun piece hpiece => h piece (List.mem_of_mem_filter hpiece)) _

/-- An operator that does nothing but call a function. -/
def bareOperator (function : String) : Operator :=
  { name := "A", function, operands := [], attributes := [], device := .string Operator.defaultDevice }

/-- The kernel of such an operator. -/
def bareKernel (function : String) : Kernel :=
  { operator := "A", header := function ++ ".hpp", namespaces := [], device := "DEVICE_CPU", registrations := [],
    shapeInferences := [], attributes := [], inputs := [], outputs := [], call := [.eval (.callNamed function [])] }

/-- The operator is rendered as its kernel. -/
theorem render_bareOperator (function : String) :
    ((bareOperator function).render .default).outcome = .ok (bareKernel function).text := by
  rfl

/-- The text of the kernel has an encoding if the function's name holds no mark. -/
theorem isEncodable_bareKernel {function : String} (h : halfMark ∉ function.toList) :
    isEncodable (bareKernel function).text = true := by
  have hpiece : stmtText [.eval (.callNamed function [])] =
      spaces 0 ++ (function ++ "(" ++ commaList [] ++ ")" ++ ";") := by
    rfl
  have hcall : halfMark ∉ (sectionText [stmtText [.eval (.callNamed function [])]] 2).toList := by
    refine not_mem_sectionText (by decide) (by decide) (List.forall_mem_singleton.mpr ?_) 2
    simp only [hpiece, String.toList_append, List.mem_append, not_or]
    exact ⟨by decide, ⟨⟨⟨h, by decide⟩, by decide⟩, by decide⟩, by decide⟩
  refine isEncodable_of_not_mem (not_mem_unlines (by decide) ?_)
  simp only [bareKernel, List.forall_mem_cons, String.toList_append, List.mem_append, not_or, List.map_nil]
  and_intros
  -- A literal is taken as the list of its characters; a section without pieces is computed.
  all_goals first
    | rw [String.toList_ofList]
      decide
    | with_reducible assumption
    | decide +kernel

/-! ## A run over two files -/

/-- A directory with a specification file of an operator without operands, and one that holds a list. -/
def pairTree : FileTree :=
  { workingPlace := ["w"]
    nodes := [(["w"], .directory), (["a.json", "w"], .text "\x7b\x7d"), (["b.json", "w"], .text "[]")] }

/-- The kernel of the operator. -/
def pairKernel : Kernel :=
  { operator := "A", header := "a.hpp", namespaces := [], device := "DEVICE_CPU", registrations := [],
    shapeInferences := [], attributes := [], inputs := [], outputs := [], call := [.eval (.callNamed "a" [])] }

/-- The text of the kernel is that of the first file. -/
theorem kernelSource_pairTree : kernelSource .default pairTree "a.json" = .ok pairKernel.text := by
  rfl

/-- The text of the kernel has an encoding. -/
theorem isEncodable_pairKernel : isEncodable pairKernel.text = true := by
  have hkernel : pairKernel = bareKernel "a" := by rfl
  rw [hkernel]
  exact isEncodable_bareKernel (by decide)

/-- The directory with the kernel of the operator. -/
def pairTreeAfter : FileTree :=
  { pairTree with nodes := pairTree.nodes ++ [(["a_op.cc", "w"], .text pairKernel.text)] }

/-- The kernel of the operator is written beside its file. -/
theorem write_pairTree :
    pairTree.write (kernelPath pairTree "a.json" none) pairKernel.text = ⟨pairTreeAfter, .ok ()⟩ := by
  have hplace : pairTree.fileToWrite (kernelPath pairTree "a.json" none) = .ok ["a_op.cc", "w"] := by rfl
  exact FileTree.write_of_fileToWrite hplace isEncodable_pairKernel

/-- The first file is scaffolded, and in no other way. -/
theorem scaffolds_pairTree_iff {t : FileTree} :
    Scaffolds none .default pairTree "a.json" t ↔ t = pairTreeAfter := by
  have hmade : pairTree.makeDirectories (kernelDirectory pairTree "a.json" none) = .ok pairTree := by rfl
  constructor
  · rintro ⟨source, made, hsource, hmade', hwrite⟩
    obtain rfl := Except.ok.inj (kernelSource_pairTree.symm.trans hsource)
    obtain rfl := Except.ok.inj (hmade.symm.trans hmade')
    rw [write_pairTree] at hwrite
    exact (congrArg FileTree.Change.files hwrite).symm
  · rintro rfl
    exact ⟨pairKernel.text, pairTree, kernelSource_pairTree, hmade, write_pairTree⟩

/-- The second file is refused. -/
theorem kernelSource_pairTreeAfter :
    kernelSource .default pairTreeAfter "b.json" = .error (.refusal (.spec (.notAnObject (.array [])))) := by
  rfl

/-- Nothing but a refusal can stop the two files. -/
theorem allUnhindered_pairTree : AllUnhindered none .default pairTree ["a.json", "b.json"] := by
  intro done spec rest t heq hdone
  match done, hdone with
  | [], .nil _ =>
    obtain ⟨rfl, -⟩ := List.cons.inj heq
    have hmade : pairTree.makeDirectories (kernelDirectory pairTree "a.json" none) = .ok pairTree := by rfl
    refine ⟨fun fault hfault => ?_, fun source hsource => ⟨pairTree, hmade, ?_⟩, by decide +kernel⟩
    · cases kernelSource_pairTree.symm.trans hfault
    · obtain rfl := Except.ok.inj (kernelSource_pairTree.symm.trans hsource)
      rw [write_pairTree]
  | [_], .cons first (.nil _) =>
    obtain ⟨hhead, heq⟩ := List.cons.inj heq
    obtain ⟨rfl, -⟩ := List.cons.inj heq
    rw [← hhead] at first
    obtain rfl := scaffolds_pairTree_iff.mp first
    refine ⟨fun fault hfault => ?_, fun source hsource => ?_, by decide +kernel⟩
    · cases kernelSource_pairTreeAfter.symm.trans hfault
    · cases kernelSource_pairTreeAfter.symm.trans hsource
  | _ :: _ :: _, _ => simp at heq

/-- A run over the two files reports the first one and stops at the second. If the log is to have the notes of written
files, that of the first one stands in front of the error. -/
theorem runWords_render_pairTree :
    (runWords pairTree ["render", "a.json", "b.json"]).ending =
        .finished 1 "a.json -> /w/a_op.cc\n" "Error: b.json: An operator spec must be a JSON object\n" ∧
      (runWords pairTree ["render", "a.json", "b.json"]).errorText Level.info.rank =
        "[tfcv-opgen] INFO tfcv_opgen.kernel_helper.scaffold: wrote /w/a_op.cc\n" ++
          "Error: b.json: An operator spec must be a JSON object\n" ∧
      (runWords pairTree ["render", "a.json", "b.json"]).files = pairTreeAfter := by
  have hwords : Command.ofWords ["render", "a.json", "b.json"] =
      some (.render ["a.json", "b.json"] none .default) := by rfl
  have hspecs : ∀ spec ∈ ["a.json", "b.json"], ∃ content, pairTree.read spec = .ok content := by
    simp only [List.forall_mem_cons]
    exact ⟨⟨_, rfl⟩, ⟨_, rfl⟩, List.forall_mem_nil _⟩
  obtain ⟨_, hstops, _⟩ := runWords_render hwords hspecs (fun path hpath => nomatch hpath) allUnhindered_pairTree
  obtain ⟨hending, herrors, hfiles⟩ := hstops ["a.json"] "b.json" pairTreeAfter (.spec (.notAnObject (.array [])))
    ⟨⟨[], rfl⟩, .cons (scaffolds_pairTree_iff.mpr rfl) (.nil _), kernelSource_pairTreeAfter⟩
  have hline : withoutControl (kernelLine none pairTree "a.json") = "a.json -> /w/a_op.cc" := by decide +kernel
  have hrecords : scaffoldRecords none .default pairTree ["a.json"] ++ kernelRecords .default pairTreeAfter "b.json" =
      [⟨.debug, .kernels, "rendered kernel A: 0 inputs, 0 outputs, 0 attributes"⟩, writtenRecord "/w/a_op.cc"] := by
    rfl
  refine ⟨hending.trans ?_, (herrors Level.info.rank).trans ?_, hfiles⟩
  · rw [List.map_singleton, hline]
    decide +kernel
  · rw [hrecords]
    decide +kernel

/-- A directory with a specification file whose name holds a control sequence. -/
def styledTree : FileTree :=
  { workingPlace := ["w"]
    nodes := [(["w"], .directory), (["x\x1b[1my.json", "w"], .text "[]")] }

/-- The file is there and is refused, but the name in the line of errors is not the name of the file. -/
theorem styledTree_misnamed :
    styledTree.read "x\x1b[1my.json" = .ok "[]" ∧
      kernelSource .default styledTree "x\x1b[1my.json" = .error (.refusal (.spec (.notAnObject (.array [])))) ∧
      (runWords styledTree ["render", "x\x1b[1my.json"]).ending =
        .finished 1 "" "Error: xy.json: An operator spec must be a JSON object\n" ∧
      "Error: xy.json: An operator spec must be a JSON object\n" ≠
        "Error: " ++ "x\x1b[1my.json" ++ ": " ++ (Refusal.spec (.notAnObject (.array []))).message ++ "\n" := by
  refine ⟨by rfl, by rfl, by rfl, by decide⟩

end TensorBridge
