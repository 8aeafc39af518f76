import TensorBridge.Proofs.Command.Rendering

/-!
# Runs without an error

What is known of a run of the command for kernels once its exit code is zero: its specification files were there, each
of them was scaffolded on the files that the ones before it had left, and each was reported.
-/

namespace TensorBridge

variable {directory : Option String} {options : RenderOptions} {t t' : FileTree} {spec : String}

/-! ## One specification file -/

/-- An attempt that goes well has found what had to be found first. -/
theorem Writing.after_eq_ok {α : Type} {first : Traced α} {next : α → Writing} {w : Written}
    (h : (Writing.after t first next).result.outcome = .ok w) :
    ∃ a, first.outcome = .ok a ∧ (next a).result.outcome = .ok w ∧
      (Writing.after t first next).files = (next a).files := by
  obtain ⟨a, ha, hnext⟩ := Traced.outcome_bind_eq_ok.mp h
  exact ⟨a, ha, hnext, (Writing.after_of_ok ha t next).1⟩

/-- A text that has been put into a directory was written once the directory was made. -/
theorem writeInto_eq_ok {folder path content : String} {w : Written}
    (h : (writeInto t folder path content).result.outcome = .ok w) :
    ∃ made, t.makeDirectories folder = .ok made ∧
      made.write path content = ⟨(writeInto t folder path content).files, .ok ()⟩ ∧ w.path = path := by
  unfold writeInto at h ⊢
  obtain ⟨made, hmade, h, hfiles⟩ := Writing.after_eq_ok h
  rw [hfiles]
  dsimp only at h ⊢
  obtain ⟨_, hwritten, h⟩ := Traced.outcome_bind_eq_ok.mp h
  rw [Traced.outcome_ofExcept] at hmade hwritten
  cases h
  refine ⟨made, except_mapError_eq_ok.mp hmade, ?_, rfl⟩
  rw [← except_mapError_eq_ok.mp hwritten]

/-- A file whose kernel has been written is scaffolded. -/
theorem scaffolds_of_writeKernel {w : Written} (h : (writeKernel t spec directory options).result.outcome = .ok w) :
    Scaffolds directory options t spec (writeKernel t spec directory options).files ∧
      w.path = kernelPath t spec directory := by
  unfold writeKernel at h ⊢
  obtain ⟨source, hsource, h, hfiles⟩ := Writing.after_eq_ok h
  obtain ⟨made, hmade, hwrite, hpath⟩ := writeInto_eq_ok h
  rw [hfiles]
  exact ⟨⟨source, made, hsource, hmade, hwrite⟩, hpath⟩

/-! ## A run -/

/-- A run that an error ends does not end with the exit code zero. -/
theorem CommandRun.endingBy_ne_finished {output context : String} {e : Error} {out errors : String} :
    endingBy output context e ≠ .finished 0 out errors := by
  cases e with
  | refusal refusal =>
    unfold endingBy endingWith
    dsimp only
    split
    · exact fun h => nomatch h
    · exact fun h => nomatch h
  | fault fault => exact fun h => nomatch h

/-- In a run with the exit code zero, all files are scaffolded, and their reports have an encoding. -/
theorem Command.scaffoldsAll_of_finished {specs : List String} {output out errors : String} {records : List Record}
    (h : (renderAll directory options output records t specs).ending = .finished 0 out errors) :
    ScaffoldsAll directory options t specs (renderAll directory options output records t specs).files ∧
      ∀ spec ∈ specs, isEncodable (kernelLine directory t spec ++ "\n") = true := by
  induction specs generalizing t output records with
  | nil => exact ⟨.nil t, List.forall_mem_nil _⟩
  | cons spec rest ih =>
    rw [renderAll] at h ⊢
    dsimp only at h ⊢
    split at h
    · exact absurd h CommandRun.endingBy_ne_finished
    · next written houtcome =>
      obtain ⟨hfirst, hpath⟩ := scaffolds_of_writeKernel houtcome
      split at h
      · next hline =>
        obtain ⟨hothers, hlines⟩ := ih h
        rw [if_pos hline]
        rw [hpath] at hline
        refine ⟨.cons hfirst hothers, List.forall_mem_cons.mpr ⟨hline, fun spec' hspec' => ?_⟩⟩
        rw [← kernelLine_eq hfirst.workingPlace_eq]
        exact hlines spec' hspec'
      · cases h

/-! ## The command -/

section Command

variable {files : FileTree} {words specs : List String} {code : Nat} {output errors : String}

/-- A command that ends at one of its paths has no exit code of a run. -/
theorem Command.endingAt?_ne_finished {fits : Option Node → Bool} {path : String} :
    endingAt? files fits path ≠ some (.finished code output errors) := by
  unfold endingAt?
  split
  · exact fun h => nomatch h
  · split
    · exact fun h => nomatch h
    · exact fun h => nomatch h

/-- A request for kernels that comes to an exit code has come to its work, and its specification files are there. -/
theorem Command.run_render_of_finished
    (h : ((Command.render specs directory options).run files).ending = .finished code output errors) :
    (Command.render specs directory options).run files = renderAll directory options "" [] files specs ∧
      ∀ spec ∈ specs, ∃ content, files.read spec = .ok content := by
  unfold run at h ⊢
  split at h
  · next ending hpaths =>
    rw [endingAtPaths?, Option.orElse_eq_orElse, Option.orElse_eq_or, Option.or_eq_some_iff] at hpaths
    obtain rfl : ending = .finished code output errors := h
    rcases hpaths with hpaths | ⟨_, hpaths⟩
    · obtain ⟨path, _, hpath⟩ := Option.bind_eq_some_iff.mp hpaths
      exact absurd hpath endingAt?_ne_finished
    · obtain ⟨spec, _, hspec⟩ := List.exists_of_findSome?_eq_some hpaths
      exact absurd hspec endingAt?_ne_finished
  · next hpaths =>
    refine ⟨rfl, fun spec hspec => ?_⟩
    rw [endingAtPaths?, Option.orElse_eq_orElse, Option.orElse_eq_or, Option.or_eq_none_iff,
      List.findSome?_eq_none_iff] at hpaths
    have hfits := hpaths.2 spec hspec
    unfold endingAt? at hfits
    split at hfits
    · cases hfits
    · next hpath =>
      split at hfits
      · next htext =>
        unfold endingAtPaths?.isText at htext
        split at htext
        · next content hnode => exact ⟨_, FileTree.read_eq_ok_iff_find?.mpr ⟨hpath, content, hnode, rfl⟩⟩
        · cases htext
      · cases hfits

end Command

end TensorBridge
