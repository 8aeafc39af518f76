import TensorBridge.Proofs.Command.Completed
import TensorBridge.Proofs.Files.Names

/-!
# Kernels in one place

A kernel is named after its specification file, without the directory and the extension, so the kernels of several
files of a run may come to one place. The last one stays: at the end of a run without an error, the path that is
reported for a file leads to the kernel of the last file of the run whose path leads to the same place. It is the kernel
of what that file held before the run. A kernel may have been written over a specification file, but a kernel is no
data, and a run that comes to such a file ends with an error.
-/

namespace TensorBridge

variable {directory : Option String} {options : RenderOptions} {t t' : FileTree} {spec source : String}

/-! ## Kernels are no data -/

/-- The text of a kernel starts with a slash. -/
theorem Kernel.toList_text (k : Kernel) : ∃ rest, k.text.toList = '/' :: rest := by
  unfold Kernel.text unlines
  rw [String.intercalate_cons_cons, String.append_assoc, String.toList_append]
  exact ⟨_, rfl⟩

/-- A text that starts with a slash is malformed. -/
theorem Value.ofText_of_slash {text : String} {rest : List Char} (h : text.toList = '/' :: rest) :
    Value.ofText text = .error (.malformed .noValue ('/' :: rest)) := by
  have hvalue (fuel depth : Nat) :
      readValue (fuel + 1) depth ('/' :: rest) = .error (.malformed .noValue ('/' :: rest)) := by
    rw [readValue]
    · rfl
    all_goals exact fun _ h => nomatch h
  have hgap : skipGap ('/' :: rest) = '/' :: rest := rfl
  rw [Value.ofText, h, hgap]
  dsimp only
  rw [hvalue]
  rfl

/-- A source text is that of a kernel. -/
theorem exists_kernel_of_kernelSource (h : kernelSource options t spec = .ok source) :
    ∃ k : Kernel, source = k.text := by
  obtain ⟨operator, _, h⟩ := Traced.outcome_bind_eq_ok.mp h
  obtain ⟨k, _, h⟩ := Traced.outcome_bind_eq_ok.mp h
  exact ⟨k, (Except.ok.inj h).symm⟩

/-- The source text of a kernel depends on what the specification file holds. -/
theorem kernelSource_eq_of_read (h : t'.read spec = t.read spec) :
    kernelSource options t' spec = kernelSource options t spec := by
  rw [kernelSource, kernelSource, Operator.load, Operator.load, h]

/-- A file that holds a kernel describes none. -/
theorem kernelSource_ne_ok_of_kernel {k : Kernel} (h : t.read spec = .ok (withLineFeeds k.text)) :
    kernelSource options t spec ≠ .ok source := by
  obtain ⟨rest, hrest⟩ := k.toList_text
  have hread : (withLineFeeds k.text).toList = '/' :: lineFeeds rest := by
    rw [withLineFeeds, String.toList_ofList, hrest]
    rfl
  intro hsource
  obtain ⟨operator, hload, _⟩ := Traced.outcome_bind_eq_ok.mp hsource
  rw [Operator.load, h] at hload
  dsimp only at hload
  rw [Value.ofText_of_slash hread] at hload
  cases hload

/-! ## Kernels that share a file -/

/-- The kernels of two files lie in one place. -/
def SharesFile (directory : Option String) (t : FileTree) (a b : String) : Prop :=
  ∃ place, t.follow (kernelPath t a directory) = .ok place ∧ t.follow (kernelPath t b directory) = .ok place

/-- A kernel lies in a file with a name of its own. -/
theorem isFileName_kernelFileName (spec : String) : IsFileName (kernelFileName spec) where
  slash := by
    rw [kernelFileName, String.toList_append, List.mem_append, not_or]
    exact ⟨Path.not_mem_stem spec, by decide⟩
  follow := by
    have hsuffix : "_op.cc".toList.length = 6 := by rfl
    refine follow_byteText ?_
    rw [kernelFileName, String.toList_append, List.length_append, hsuffix]
    omega

/-- Kernels that lie somewhere share a file exactly if their directories are one and their names have the same bytes.
-/
theorem sharesFile_iff {a b : String} {place other : Place} (ha : t.follow (kernelPath t a directory) = .ok place)
    (hb : t.follow (kernelPath t b directory) = .ok other) :
    SharesFile directory t a b ↔
      t.directoryPlace (kernelDirectory t a directory) = t.directoryPlace (kernelDirectory t b directory) ∧
        byteText (kernelFileName a) = byteText (kernelFileName b) := by
  obtain ⟨outer, houter, rfl⟩ := FileTree.follow_join (isFileName_kernelFileName a) ha
  obtain ⟨outer', houter', rfl⟩ := FileTree.follow_join (isFileName_kernelFileName b) hb
  rw [SharesFile, ha, hb, houter, houter']
  constructor
  · rintro ⟨place, hplace, hplace'⟩
    obtain ⟨hname, rfl⟩ := List.cons.inj ((Except.ok.inj hplace).trans (Except.ok.inj hplace').symm)
    exact ⟨rfl, hname⟩
  · rintro ⟨hdirectory, hname⟩
    obtain rfl := Except.ok.inj hdirectory
    rw [hname]
    exact ⟨_, rfl, rfl⟩

/-! ## What a run leaves -/

/-- Files that are scaffolded leave the directories. -/
theorem ScaffoldsAll.keepsDirectories {specs : List String} (h : ScaffoldsAll directory options t specs t') :
    t.KeepsDirectories t' := by
  induction h with
  | nil => exact FileTree.KeepsDirectories.refl _
  | cons first _ ih =>
    obtain ⟨_, _, _, _, hwrites⟩ := first.writes
    exact hwrites.keepsDirectories.trans ih

/-- A file that is scaffolded before others has the source text of its kernel written to the place that the kernel's
path leads to after them. -/
theorem Scaffolds.writes_before {t'' : FileTree} {rest : List String} (h : Scaffolds directory options t spec t')
    (others : ScaffoldsAll directory options t' rest t'') :
    ∃ source place, kernelSource options t spec = .ok source ∧
      t''.follow (kernelPath t'' spec directory) = .ok place ∧ t.Writes t' place source := by
  obtain ⟨source, place, hsource, hplace, hwrites⟩ := h.writes
  refine ⟨source, place, hsource, ?_, hwrites⟩
  rw [kernelPath_eq (others.workingPlace_eq.trans hwrites.workingPlace_eq)]
  exact others.keepsDirectories.follow hplace

namespace ScaffoldsAll

variable {specs : List String} {place : Place} {content : String}

/-- The path of the kernel of each file leads to a place. -/
theorem exists_place (h : ScaffoldsAll directory options t specs t') :
    ∀ spec ∈ specs, ∃ place, t'.follow (kernelPath t' spec directory) = .ok place := by
  induction h with
  | nil => exact List.forall_mem_nil _
  | cons first others ih =>
    obtain ⟨_, place, _, hplace, _⟩ := first.writes_before others
    exact List.forall_mem_cons.mpr ⟨⟨place, hplace⟩, ih⟩

/-- A text that stands somewhere stays there, unless a kernel is written over it. -/
theorem text_or_kernel (h : ScaffoldsAll directory options t specs t') (hnode : t.node? place = some (.text content)) :
    t'.node? place = some (.text content) ∨ ∃ k : Kernel, t'.node? place = some (.text k.text) := by
  induction h generalizing content with
  | nil => exact .inl hnode
  | cons first _ ih =>
    obtain ⟨source, written, hsource, _, hwrites⟩ := first.writes
    by_cases hplace : place = written
    · obtain ⟨k, rfl⟩ := exists_kernel_of_kernelSource hsource
      rw [← hplace] at hwrites
      rcases ih hwrites.written with hkernel | hkernel
      · exact .inr ⟨k, hkernel⟩
      · exact .inr hkernel
    · exact ih (hwrites.kept place _ hplace hnode)

/-- What stands in a place to which no kernel of the files comes stays there. -/
theorem node?_eq (h : ScaffoldsAll directory options t specs t') {node : Node} (hnode : t.node? place = some node)
    (hothers : ∀ other ∈ specs, t'.follow (kernelPath t' other directory) ≠ .ok place) :
    t'.node? place = some node := by
  induction h with
  | nil => exact hnode
  | cons first others ih =>
    obtain ⟨_, written, _, hwritten, hwrites⟩ := first.writes_before others
    obtain ⟨hfirst, hothers⟩ := List.forall_mem_cons.mp hothers
    refine ih (hwrites.kept place node ?_ hnode) hothers
    rintro rfl
    exact hfirst hwritten

/-- The kernel of a file that is rendered after others is the kernel of what the file held before them. -/
theorem kernelSource_eq (h : ScaffoldsAll directory options t specs t') (hread : t.read spec = .ok content)
    (hsource : kernelSource options t' spec = .ok source) : kernelSource options t spec = .ok source := by
  obtain ⟨hpath, place, held, hplace, hnode, htext⟩ := FileTree.read_eq_ok_iff.mp hread
  have hplace' := h.keepsDirectories.follow hplace
  rcases h.text_or_kernel hnode with hnode' | ⟨k, hnode'⟩
  · have hread' := FileTree.read_eq_ok_iff.mpr ⟨hpath, place, held, hplace', hnode', htext⟩
    rwa [← kernelSource_eq_of_read (hread'.trans hread.symm)]
  · have hread' := FileTree.read_eq_ok_iff.mpr ⟨hpath, place, k.text, hplace', hnode', rfl⟩
    exact absurd hsource (kernelSource_ne_ok_of_kernel hread')

/-- The last of the files whose kernels come to one place leaves its kernel there. -/
theorem find?_last {done rest : List String} {last : String}
    (h : ScaffoldsAll directory options t (done ++ last :: rest) t') (hread : t.read last = .ok content)
    (hshares : SharesFile directory t' last spec) (hlast : ∀ other ∈ rest, ¬ SharesFile directory t' other spec) :
    ∃ source, kernelSource options t last = .ok source ∧
      t'.find? (kernelPath t' spec directory) = some (.text source) := by
  obtain ⟨t₁, hdone, hrest⟩ := append_iff.mp h
  cases hrest with
  | cons first others =>
    obtain ⟨source, written, hsource, hwritten, hwrites⟩ := first.writes_before others
    obtain ⟨place, hplace, hspec⟩ := hshares
    obtain rfl := Except.ok.inj (hplace.symm.trans hwritten)
    refine ⟨source, hdone.kernelSource_eq hread hsource, ?_⟩
    rw [FileTree.find?_of_follow hspec]
    exact others.node?_eq hwrites.written fun other hother hother' => hlast other hother ⟨place, hother', hspec⟩

end ScaffoldsAll

/-- Of the items of a list that have a property, one is the last. -/
theorem exists_last_of_mem {α : Type} {P : α → Prop} {l : List α} (h : ∃ a ∈ l, P a) :
    ∃ done last rest, l = done ++ last :: rest ∧ P last ∧ ∀ a ∈ rest, ¬ P a := by
  induction l with
  | nil =>
    obtain ⟨_, ha, _⟩ := h
    cases ha
  | cons a l ih =>
    by_cases hlater : ∃ b ∈ l, P b
    · obtain ⟨done, last, rest, rfl, hlast, hrest⟩ := ih hlater
      exact ⟨a :: done, last, rest, rfl, hlast, hrest⟩
    · obtain ⟨b, hb, hP⟩ := h
      rcases List.mem_cons.mp hb with rfl | hb
      · exact ⟨[], b, l, rfl, hP, fun c hc hPc => hlater ⟨c, hc, hPc⟩⟩
      · exact absurd ⟨b, hb, hP⟩ hlater

/-- After a run, a file has its own kernel: its path leads to the kernel of what the file held before. -/
def HasOwnKernel (directory : Option String) (options : RenderOptions) (t t' : FileTree) (spec : String) : Prop :=
  ∃ source, kernelSource options t spec = .ok source ∧ t'.find? (kernelPath t spec directory) = some (.text source)

/-- After a run, the path of a file's kernel leads to the kernel of the last file of the run that shares it. -/
def HasLastKernel (directory : Option String) (options : RenderOptions) (t t' : FileTree) (specs : List String)
    (spec : String) : Prop :=
  ∃ done last rest source, specs = done ++ last :: rest ∧ SharesFile directory t' last spec ∧
    (∀ other ∈ rest, ¬ SharesFile directory t' other spec) ∧ kernelSource options t last = .ok source ∧
      t'.find? (kernelPath t spec directory) = some (.text source)

namespace ScaffoldsAll

variable {specs : List String}

/-- Each file has the last kernel. -/
theorem hasLastKernel (h : ScaffoldsAll directory options t specs t')
    (hread : ∀ spec ∈ specs, ∃ content, t.read spec = .ok content) :
    ∀ spec ∈ specs, HasLastKernel directory options t t' specs spec := by
  intro spec hspec
  obtain ⟨place, hplace⟩ := h.exists_place spec hspec
  obtain ⟨done, last, rest, rfl, hlast, hrest⟩ :=
    exists_last_of_mem (P := (SharesFile directory t' · spec)) ⟨spec, hspec, place, hplace, hplace⟩
  obtain ⟨content, hcontent⟩ := hread last (by simp)
  obtain ⟨source, hsource, hfound⟩ := h.find?_last hcontent hlast hrest
  rw [kernelPath_eq h.workingPlace_eq] at hfound
  exact ⟨done, last, rest, source, rfl, hlast, hrest, hsource, hfound⟩

/-- Each file has its own kernel exactly if those that share a file are the same. -/
theorem forall_hasOwnKernel_iff (h : ScaffoldsAll directory options t specs t')
    (hread : ∀ spec ∈ specs, ∃ content, t.read spec = .ok content) :
    (∀ spec ∈ specs, HasOwnKernel directory options t t' spec) ↔
      ∀ spec ∈ specs, ∀ other ∈ specs, SharesFile directory t' spec other →
        kernelSource options t spec = kernelSource options t other := by
  constructor
  · intro hown spec hspec other hother hshares
    obtain ⟨source, hsource, hfound⟩ := hown spec hspec
    obtain ⟨source', hsource', hfound'⟩ := hown other hother
    obtain ⟨place, hplace, hplace'⟩ := hshares
    rw [← kernelPath_eq h.workingPlace_eq, FileTree.find?_of_follow hplace] at hfound
    rw [← kernelPath_eq h.workingPlace_eq, FileTree.find?_of_follow hplace', hfound] at hfound'
    obtain rfl : source = source' := by simpa using hfound'
    rw [hsource, hsource']
  · intro hsame spec hspec
    obtain ⟨done, last, rest, source, rfl, hshares, _, hsource, hfound⟩ := h.hasLastKernel hread spec hspec
    exact ⟨source, (hsame last (by simp) spec hspec hshares).symm.trans hsource, hfound⟩

end ScaffoldsAll

/-! ## The command -/

section Command

variable {files : FileTree} {words specs : List String} {output errors : String}

/-- A run of the command for kernels with the exit code zero reports each file on a line of its own, without control
sequences. At its end, the path that it reports for a file leads to a kernel of what was there before the run: to that
of the last file whose kernel shares the file. So each file has its own kernel exactly if kernels that share a file are
the same. They share it exactly if their directories are one and their names have the same bytes. -/
theorem runWords_leaves_last_kernels (hwords : Command.ofWords words = some (.render specs directory options))
    (hexit : (runWords files words).ending = .finished 0 output errors) :
    output = joinLines (specs.map fun spec => withoutControl (kernelLine directory files spec)) ∧
      (∀ spec ∈ specs, HasLastKernel directory options files (runWords files words).files specs spec) ∧
      ((∀ spec ∈ specs, HasOwnKernel directory options files (runWords files words).files spec) ↔
        ∀ spec ∈ specs, ∀ other ∈ specs, SharesFile directory (runWords files words).files spec other →
          kernelSource options files spec = kernelSource options files other) ∧
      ∀ spec ∈ specs, ∀ other ∈ specs, SharesFile directory (runWords files words).files spec other ↔
        (runWords files words).files.directoryPlace (kernelDirectory files spec directory) =
            (runWords files words).files.directoryPlace (kernelDirectory files other directory) ∧
          byteText (kernelFileName spec) = byteText (kernelFileName other) := by
  have hrun : runWords files words = (Command.render specs directory options).run files := by
    rw [runWords, hwords]
  rw [hrun] at hexit ⊢
  obtain ⟨hall, hread⟩ := Command.run_render_of_finished hexit
  rw [hall] at hexit ⊢
  obtain ⟨hscaffolds, hlines⟩ := Command.scaffoldsAll_of_finished hexit
  refine ⟨?_, hscaffolds.hasLastKernel hread, hscaffolds.forall_hasOwnKernel_iff hread, ?_⟩
  · rw [Command.renderAll_of_scaffoldsAll hscaffolds hlines] at hexit
    injection hexit with _ houtput
    exact houtput.symm
  · intro spec hspec other hother
    obtain ⟨place, hplace⟩ := hscaffolds.exists_place spec hspec
    obtain ⟨place', hplace'⟩ := hscaffolds.exists_place other hother
    have hkept := hscaffolds.workingPlace_eq
    rw [sharesFile_iff hplace hplace', kernelDirectory, kernelDirectory, FileTree.workingPath, hkept]
    rfl

end Command

/-! ## Two files with one kernel -/

/-- A directory with two specification files that differ in their extensions, and in the functions that they name. -/
def twinTree : FileTree :=
  { workingPlace := ["w"]
    nodes := [(["w"], .directory), (["a.json", "w"], .text "\x7b\x7d"),
      (["a.txt", "w"], .text "\x7b\x22fnName\x22: \x22b\x22\x7d")] }

/-- The directory with the kernel of a function. -/
def twinTreeWith (function : String) : FileTree :=
  { twinTree with nodes := twinTree.nodes ++ [(["a_op.cc", "w"], .text (bareKernel function).text)] }

/-- The first file describes the kernel of its own name. -/
theorem kernelSource_twinTree : kernelSource .default twinTree "a.json" = .ok (bareKernel "a").text := by
  rfl

/-- A text has the value that its characters write, if nothing stands behind it. -/
theorem Value.ofText_of_readValue {text : String} {cs : List Char} {v : Value}
    (hmark : text.toList.head? ≠ some byteOrderMark) (hchars : skipGap text.toList = cs)
    (hvalue : readValue (2 * cs.length + 2) maxNesting cs = .ok (v, [])) : Value.ofText text = .ok v := by
  rw [Value.ofText, if_neg hmark, hchars]
  dsimp only
  rw [hvalue]
  rfl

/-- The second file names a function. -/
theorem ofText_twin :
    Value.ofText "\x7b\x22fnName\x22: \x22b\x22\x7d" = .ok (.object [("fnName", .string "b")]) := by
  have hchars : Value.skipGap ("\x7b\x22fnName\x22: \x22b\x22\x7d" : String).toList =
      ['\x7b', '\x22', 'f', 'n', 'N', 'a', 'm', 'e', '\x22', ':', ' ', '\x22', 'b', '\x22', '\x7d'] := by
    rfl
  -- three steps read the text, whatever is left of the bounds
  have hvalue (fuel depth : Nat) : Value.readValue (fuel + 3) (depth + 1)
      ['\x7b', '\x22', 'f', 'n', 'N', 'a', 'm', 'e', '\x22', ':', ' ', '\x22', 'b', '\x22', '\x7d'] =
        .ok (.object [("fnName", .string "b")], []) := by
    rfl
  exact Value.ofText_of_readValue (by decide +kernel) hchars (hvalue 29 989)

/-- The second file describes the kernel of the function that it names, wherever it is read. -/
theorem kernelSource_of_read_twin (h : t.read "a.txt" = .ok "\x7b\x22fnName\x22: \x22b\x22\x7d") :
    kernelSource .default t "a.txt" = .ok (bareKernel "b").text := by
  have hoperator : (Operator.read (.object [("fnName", .string "b")]) "a").outcome = .ok (bareOperator "b") := by rfl
  have hload : (Operator.load t "a.txt").outcome = .ok (bareOperator "b") := by
    rw [Operator.load, h]
    dsimp only
    rw [ofText_twin]
    exact hoperator
  exact Traced.outcome_bind_eq_ok.mpr ⟨_, hload, render_bareOperator "b"⟩

/-- Both files are scaffolded. -/
theorem scaffoldsAll_twinTree : ScaffoldsAll none .default twinTree ["a.json", "a.txt"] (twinTreeWith "b") := by
  have hplace : twinTree.fileToWrite (kernelPath twinTree "a.json" none) = .ok ["a_op.cc", "w"] := by rfl
  have hfirst : Scaffolds none .default twinTree "a.json" (twinTreeWith "a") :=
    ⟨(bareKernel "a").text, twinTree, kernelSource_twinTree, by rfl,
      FileTree.write_of_fileToWrite hplace (isEncodable_bareKernel (by decide))⟩
  have hplace' : (twinTreeWith "a").fileToWrite (kernelPath (twinTreeWith "a") "a.txt" none) =
      .ok ["a_op.cc", "w"] := by
    rfl
  have hsecond : Scaffolds none .default (twinTreeWith "a") "a.txt" (twinTreeWith "b") :=
    ⟨(bareKernel "b").text, twinTreeWith "a", kernelSource_of_read_twin (by rfl), by rfl,
      FileTree.write_of_fileToWrite hplace' (isEncodable_bareKernel (by decide))⟩
  exact .cons hfirst (.cons hsecond (.nil _))

/-- The run over the two files reports one path twice, and leaves the kernel of the second one. -/
theorem runWords_twinTree :
    (runWords twinTree ["render", "a.json", "a.txt"]).ending =
        .finished 0 "a.json -> /w/a_op.cc\na.txt -> /w/a_op.cc\n" "" ∧
      (runWords twinTree ["render", "a.json", "a.txt"]).files = twinTreeWith "b" := by
  have hlines : ∀ spec ∈ ["a.json", "a.txt"], isEncodable (kernelLine none twinTree spec ++ "\n") = true := by
    decide +kernel
  have hdone := Command.renderAll_of_scaffoldsAll scaffoldsAll_twinTree hlines
  have hrun : runWords twinTree ["render", "a.json", "a.txt"] =
      Command.renderAll none .default "" [] twinTree ["a.json", "a.txt"] := by
    rfl
  have houtput : joinLines (["a.json", "a.txt"].map fun spec => withoutControl (kernelLine none twinTree spec)) =
      "a.json -> /w/a_op.cc\na.txt -> /w/a_op.cc\n" := by
    decide +kernel
  rw [hrun, hdone]
  exact ⟨congrArg (Ending.finished 0 · "") houtput, rfl⟩

/-- The kernels of two functions have different texts. -/
theorem text_bareKernel_ne : (bareKernel "a").text ≠ (bareKernel "b").text := by
  have hne (rest rest' : String) : "a" ++ rest ≠ "b" ++ rest' := by
    intro h
    have hhead := congrArg (·.toList.head?) h
    simp at hhead
  intro h
  simp only [Kernel.text, bareKernel, unlines, String.intercalate_cons_cons, String.append_assoc,
    String.append_right_inj] at h
  exact hne _ _ h

/-- Both files have the kernel of the second one, since their kernels share a file, and one of them has not its own. -/
theorem runWords_leaves_last_kernels_twinTree :
    Command.ofWords ["render", "a.json", "a.txt"] = some (.render ["a.json", "a.txt"] none .default) ∧
      (runWords twinTree ["render", "a.json", "a.txt"]).ending =
        .finished 0 "a.json -> /w/a_op.cc\na.txt -> /w/a_op.cc\n" "" ∧
      (∀ spec ∈ ["a.json", "a.txt"],
        HasLastKernel none .default twinTree (twinTreeWith "b") ["a.json", "a.txt"] spec) ∧
      SharesFile none (twinTreeWith "b") "a.json" "a.txt" ∧
      ¬ ∀ spec ∈ ["a.json", "a.txt"], HasOwnKernel none .default twinTree (twinTreeWith "b") spec := by
  have hwords : Command.ofWords ["render", "a.json", "a.txt"] = some (.render ["a.json", "a.txt"] none .default) := by
    rfl
  have hsecond : kernelSource .default twinTree "a.txt" = .ok (bareKernel "b").text :=
    kernelSource_of_read_twin (by rfl)
  obtain ⟨hending, hfiles⟩ := runWords_twinTree
  obtain ⟨_, hlast, hown, hshares⟩ := runWords_leaves_last_kernels hwords hending
  rw [hfiles] at hlast hown hshares
  have hdirectory : kernelDirectory twinTree "a.json" none = kernelDirectory twinTree "a.txt" none := by decide +kernel
  have hname : kernelFileName "a.json" = kernelFileName "a.txt" := by decide +kernel
  have hshared : SharesFile none (twinTreeWith "b") "a.json" "a.txt" :=
    (hshares "a.json" (by simp) "a.txt" (by simp)).mpr ⟨by rw [hdirectory], by rw [hname]⟩
  refine ⟨hwords, hending, hlast, hshared, fun hall => ?_⟩
  have hsame := hown.mp hall "a.json" (by simp) "a.txt" (by simp) hshared
  rw [kernelSource_twinTree, hsecond] at hsame
  exact text_bareKernel_ne (Except.ok.inj hsame)

/-- The run ends without an error, but the path that it reports for the first file does not lead to the kernel of what
the file held. -/
theorem twinTree_loses_kernel :
    ["a.json", "a.txt"].Nodup ∧
      Command.ofWords ["render", "a.json", "a.txt"] = some (.render ["a.json", "a.txt"] none .default) ∧
      (runWords twinTree ["render", "a.json", "a.txt"]).ending =
        .finished 0 "a.json -> /w/a_op.cc\na.txt -> /w/a_op.cc\n" "" ∧
      kernelPath twinTree "a.json" none = "/w/a_op.cc" ∧
      kernelSource .default twinTree "a.json" = .ok (bareKernel "a").text ∧
      (runWords twinTree ["render", "a.json", "a.txt"]).files.find? "/w/a_op.cc" ≠
        some (.text (bareKernel "a").text) := by
  obtain ⟨hending, hfiles⟩ := runWords_twinTree
  have hfound : (twinTreeWith "b").find? "/w/a_op.cc" = some (.text (bareKernel "b").text) := by rfl
  refine ⟨by decide, by rfl, hending, by rfl, kernelSource_twinTree, fun h => ?_⟩
  rw [hfiles, hfound] at h
  exact text_bareKernel_ne (Node.text.inj (Option.some.inj h)).symm

end TensorBridge
