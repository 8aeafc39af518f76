import TensorBridge.Files.Tree
import TensorBridge.Proofs.Computation

/-!
# Changes of files

Making directories leaves everything that stands in a tree. Writing a text puts it in one place, where no directory
may stand, and leaves everything else. So directories stay under both, and a path that leads somewhere goes on to lead
there.
-/

namespace TensorBridge

namespace FileTree

variable {t t' t'' : FileTree} {place other : Place} {path content : String}

/-! ## Nodes -/

/-- The root is a directory. -/
theorem node?_root (t : FileTree) : t.node? [] = some .directory := rfl

/-- A node that is put in its place stands there. -/
theorem node?_set_self (hplace : place ≠ []) (t : FileTree) (node : Node) :
    (t.set place node).node? place = some node := by
  rw [node?, if_neg (by simpa using hplace)]
  exact lookup_setNode_self place node t.nodes

/-- Other nodes stay where they are. -/
theorem node?_set_of_ne (h : other ≠ place) (t : FileTree) (node : Node) :
    (t.set place node).node? other = t.node? other := by
  rw [node?, node?]
  split
  · rfl
  · exact lookup_setNode_of_ne h node t.nodes

/-! ## What stays -/

/-- Everything that stands in a tree stands in another one, too. -/
structure Keeps (t t' : FileTree) : Prop where
  workingPlace_eq : t'.workingPlace = t.workingPlace
  kept : ∀ place node, t.node? place = some node → t'.node? place = some node

/-- The directories of a tree are directories of another one, too. -/
structure KeepsDirectories (t t' : FileTree) : Prop where
  workingPlace_eq : t'.workingPlace = t.workingPlace
  kept : ∀ place, t.node? place = some .directory → t'.node? place = some .directory

/-- A text has been put in a place where no directory was; everything else that stood somewhere still does. -/
structure Writes (t t' : FileTree) (place : Place) (content : String) : Prop where
  workingPlace_eq : t'.workingPlace = t.workingPlace
  free : t.node? place ≠ some .directory
  written : t'.node? place = some (.text content)
  kept : ∀ other node, other ≠ place → t.node? other = some node → t'.node? other = some node

/-- A tree keeps what it has. -/
theorem Keeps.refl (t : FileTree) : t.Keeps t := ⟨rfl, fun _ _ h => h⟩

/-- What is kept twice is kept. -/
theorem Keeps.trans (h : t.Keeps t') (h' : t'.Keeps t'') : t.Keeps t'' :=
  ⟨h'.workingPlace_eq.trans h.workingPlace_eq, fun place node hnode => h'.kept place node (h.kept place node hnode)⟩

/-- A tree keeps its directories. -/
theorem KeepsDirectories.refl (t : FileTree) : t.KeepsDirectories t := ⟨rfl, fun _ h => h⟩

/-- Directories that are kept twice are kept. -/
theorem KeepsDirectories.trans (h : t.KeepsDirectories t') (h' : t'.KeepsDirectories t'') : t.KeepsDirectories t'' :=
  ⟨h'.workingPlace_eq.trans h.workingPlace_eq, fun place hnode => h'.kept place (h.kept place hnode)⟩

/-- A node that is put where nothing was leaves everything. -/
theorem keeps_set (h : t.node? place = none) (node : Node) : t.Keeps (t.set place node) := by
  refine ⟨rfl, fun other old hold => ?_⟩
  have hne : other ≠ place := by
    rintro rfl
    rw [h] at hold
    cases hold
  rw [node?_set_of_ne hne, hold]

/-- A text that is put where no directory was is written. -/
theorem writes_set (h : t.node? place ≠ some .directory) (content : String) :
    t.Writes (t.set place (.text content)) place content := by
  have hplace : place ≠ [] := by
    rintro rfl
    exact h (node?_root _)
  refine ⟨rfl, h, node?_set_self hplace t _, fun other node hne hnode => ?_⟩
  rw [node?_set_of_ne hne, hnode]

/-- A text is written as well to a tree that has had more added. -/
theorem Writes.of_keeps (h : t.Keeps t') (h' : t'.Writes t'' place content) : t.Writes t'' place content :=
  { workingPlace_eq := h'.workingPlace_eq.trans h.workingPlace_eq
    free := fun hnode => h'.free (h.kept place _ hnode)
    written := h'.written
    kept := fun other node hne hnode => h'.kept other node hne (h.kept other node hnode) }

/-- A text that is written leaves the directories. -/
theorem Writes.keepsDirectories (h : t.Writes t' place content) : t.KeepsDirectories t' := by
  refine ⟨h.workingPlace_eq, fun other hother => h.kept other _ ?_ hother⟩
  rintro rfl
  exact h.free hother

/-! ## Making directories and writing -/

/-- Making directories along some steps keeps everything. -/
theorem keeps_makeFrom {steps : List Step} (h : t.makeFrom place steps = .ok t') : t.Keeps t' := by
  induction steps generalizing t place with
  | nil =>
    unfold makeFrom at h
    split at h
    · cases h
      exact Keeps.refl _
    · cases h
    · cases h
  | cons step rest ih =>
    unfold makeFrom at h
    split at h
    · cases h
    split at h
    · cases h
    split at h
    · split at h
      · cases h
      · refine Keeps.trans ?_ (ih h)
        split
        · exact Keeps.refl t
        · next hnone => exact keeps_set (by simpa using hnone) _
    · cases h
    · cases h

/-- Making a directory keeps everything. -/
theorem keeps_makeDirectories (h : t.makeDirectories path = .ok t') : t.Keeps t' := by
  unfold makeDirectories at h
  split at h
  · cases h
  split at h
  · cases h
  · exact keeps_makeFrom h

/-- A step with a path has a result if the text is a path and the step has one. -/
theorem withPath_eq_ok_iff {α : Type} {step : Except FileFault α} {a : α} :
    withPath path step = .ok a ↔ textFault? path = none ∧ step = .ok a := by
  unfold withPath
  split
  · next fault hfault => simp [hfault]
  · next hnone =>
    rw [hnone]
    cases step <;> simp [Except.mapError]

/-- A file that may be written to is where its path leads, and is no directory. -/
theorem follow_of_fileToWrite (h : t.fileToWrite path = .ok place) :
    t.follow path = .ok place ∧ t.node? place ≠ some .directory := by
  obtain ⟨_, h⟩ := withPath_eq_ok_iff.mp h
  split at h
  · obtain ⟨_, _, h⟩ := except_bind_eq_ok.mp h
    cases h
  · obtain ⟨found, hfound, h⟩ := except_bind_eq_ok.mp h
    split at h
    · cases h
    · next hnode =>
      cases h
      exact ⟨hfound, hnode⟩

/-- A text is written to the place that its path leads to. -/
theorem writes_of_write (h : t.write path content = ⟨t', .ok ()⟩) :
    ∃ place, t.follow path = .ok place ∧ t.Writes t' place content := by
  unfold write at h
  split at h
  · cases h
  · next place hplace =>
    obtain ⟨hfollow, hnode⟩ := follow_of_fileToWrite hplace
    split at h
    · cases h
      exact ⟨place, hfollow, writes_set hnode content⟩
    · cases h

/-- A text that has an encoding is written to a file that may be written to. -/
theorem write_of_fileToWrite (hplace : t.fileToWrite path = .ok place) (hcontent : isEncodable content = true) :
    t.write path content = ⟨t.set place (.text content), .ok ()⟩ := by
  rw [write, hplace]
  exact if_pos hcontent

/-! ## Paths -/

/-- Components that lead to a place go on to lead there. -/
theorem KeepsDirectories.followFrom (h : t.KeepsDirectories t') {components : List String}
    (hplace : t.followFrom place components = .ok other) : t'.followFrom place components = .ok other := by
  induction components generalizing place with
  | nil => exact hplace
  | cons component rest ih =>
    unfold FileTree.followFrom at hplace ⊢
    split at hplace
    · next hnode =>
      rw [h.kept place hnode]
      dsimp only
      split at hplace
      · cases hplace
      · next hsize =>
        rw [if_neg hsize]
        exact ih hplace
    · cases hplace
    · cases hplace

/-- A path that leads to a place goes on to lead there. -/
theorem KeepsDirectories.follow (h : t.KeepsDirectories t') (hplace : t.follow path = .ok place) :
    t'.follow path = .ok place := by
  have hstart : t'.start path = t.start path := by rw [start, start, h.workingPlace_eq]
  unfold FileTree.follow followPath at hplace ⊢
  rw [hstart]
  split at hplace
  · cases hplace
  · next hne =>
    rw [if_neg hne]
    split at hplace
    · cases hplace
    · next hsize =>
      rw [if_neg hsize]
      exact h.followFrom hplace

/-- A path leads to what stands at its place. -/
theorem find?_of_follow (h : t.follow path = .ok place) : t.find? path = t.node? place := by
  rw [find?, h]

/-- A text is read where a path leads to one. -/
theorem read_eq_ok_iff {text : String} : t.read path = .ok text ↔
    textFault? path = none ∧ ∃ place content, t.follow path = .ok place ∧ t.node? place = some (.text content) ∧
      withLineFeeds content = text := by
  rw [read, withPath_eq_ok_iff, except_bind_eq_ok]
  refine and_congr_right fun _ => exists_congr fun place => ?_
  rw [exists_and_left]
  refine and_congr_right fun _ => ?_
  cases t.node? place with
  | none => simp
  | some node => cases node <;> simp

/-- A text is read where one is found. -/
theorem read_eq_ok_iff_find? {text : String} : t.read path = .ok text ↔
    textFault? path = none ∧ ∃ content, t.find? path = some (.text content) ∧ withLineFeeds content = text := by
  rw [read_eq_ok_iff, find?]
  refine and_congr_right fun _ => ?_
  cases t.follow path with
  | error fault => simp
  | ok place => simp

end FileTree

end TensorBridge
