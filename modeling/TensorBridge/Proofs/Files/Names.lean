import Mathlib.Data.List.TakeWhile
import TensorBridge.Files.Tree
import TensorBridge.Proofs.Computation

/-!
# Files in directories

A path that is joined from a directory and the name of a file leads into the place of the directory, to a node with the
bytes of the name. So two such paths lead to one place exactly if their directories do and their names have the same
bytes.
-/

namespace TensorBridge

/-! ## Components of joined paths -/

namespace Path

/-- There is a piece in front of the first slash. -/
theorem split_ne_nil (cs : List Char) : split cs ≠ [] := by
  cases cs with
  | nil => exact List.cons_ne_nil _ _
  | cons c rest =>
    rw [split]
    split
    · exact List.cons_ne_nil _ _
    · cases split rest <;> exact List.cons_ne_nil _ _

/-- Characters without a slash are one piece. -/
theorem split_of_not_mem {cs : List Char} (h : '/' ∉ cs) : split cs = [cs] := by
  induction cs with
  | nil => rfl
  | cons c rest ih =>
    rw [List.mem_cons, not_or] at h
    rw [split, if_neg (Ne.symm h.1), ih h.2]
    rfl

/-- Behind the last slash stands the last piece. -/
theorem split_append_slash (front : List Char) {cs : List Char} (h : '/' ∉ cs) :
    split (front ++ '/' :: cs) = split front ++ [cs] := by
  induction front with
  | nil =>
    have hslash : split ('/' :: cs) = [] :: split cs := if_pos rfl
    rw [List.nil_append, hslash, split_of_not_mem h]
    rfl
  | cons c front ih =>
    rw [List.cons_append, split, split, ih]
    split
    · rfl
    · cases hpieces : split front with
      | nil => exact absurd hpieces (split_ne_nil front)
      | cons piece pieces => rfl

/-- A path whose last piece is a name has this name as its last component. -/
theorem components_append_slash (front : List Char) {name : String} (h : '/' ∉ name.toList) :
    components (String.ofList (front ++ '/' :: name.toList)) =
      components (String.ofList front) ++ [name] := by
  rw [components, String.toList_ofList, split_append_slash front h, List.map_append, List.map_singleton,
    String.ofList_toList, components, String.toList_ofList]

/-- A name is no absolute path. -/
theorem isAbsolute_of_not_mem {name : String} (h : '/' ∉ name.toList) : isAbsolute name = false := by
  rw [isAbsolute, beq_eq_false_iff_ne]
  exact fun hhead => h (List.mem_of_mem_head? hhead)

/-- A name that is joined to a path does not change where the path starts. -/
theorem isAbsolute_join {folder name : String} (hname : '/' ∉ name.toList) :
    isAbsolute (join folder name) = isAbsolute folder := by
  have hrelative := isAbsolute_of_not_mem hname
  rw [join, hrelative, if_neg Bool.false_ne_true]
  cases hfolder : folder.toList with
  | nil =>
    obtain rfl := String.toList_eq_nil_iff.mp hfolder
    rw [if_pos (by rfl), String.empty_append, hrelative]
    rfl
  | cons c rest => split <;> simp [isAbsolute, hfolder]

/-- The components of a directory's path lead to the same directory as those in front of the name in the joined path:
they are the same, or they have an empty one more. -/
theorem components_join (folder : String) {name : String} (hname : '/' ∉ name.toList) :
    ∃ front, components (join folder name) = front ++ [name] ∧
      (components folder = front ∨ components folder = front ++ [""]) := by
  rw [join, isAbsolute_of_not_mem hname, if_neg Bool.false_ne_true]
  split
  · next hend =>
    rw [Bool.or_eq_true, String.isEmpty_iff, beq_iff_eq] at hend
    rcases hend with rfl | hend
    · refine ⟨[], ?_, .inr rfl⟩
      rw [String.empty_append, components, split_of_not_mem hname, List.map_singleton, String.ofList_toList]
      rfl
    · obtain ⟨front, hfront⟩ := List.getLast?_eq_some_iff.mp hend
      refine ⟨components (String.ofList front), ?_, .inr ?_⟩
      · have htext : folder ++ name = String.ofList (front ++ '/' :: name.toList) := by
          simp [← String.toList_inj, hfront]
        rw [htext, components_append_slash front hname]
      · have htext : folder = String.ofList (front ++ '/' :: ("" : String).toList) := by
          simp [← String.toList_inj, hfront]
        rw [htext, components_append_slash front (List.not_mem_nil)]
  · refine ⟨components folder, ?_, .inl rfl⟩
    have htext : folder ++ "/" ++ name = String.ofList (folder.toList ++ '/' :: name.toList) := by
      simp [← String.toList_inj]
    rw [htext, components_append_slash _ hname, String.ofList_toList]

/-- The name of the file that a path leads to has no slash. -/
theorem not_mem_baseName (path : String) : '/' ∉ (baseName path).toList := by
  intro h
  rw [baseName, String.toList_ofList, List.mem_reverse] at h
  simpa using List.mem_takeWhile_imp h

/-- A name without its extension has no other characters. -/
theorem mem_of_mem_dropExtension {name : String} {c : Char} (h : c ∈ (dropExtension name).toList) :
    c ∈ name.toList := by
  unfold dropExtension at h
  split at h
  · exact h
  · next front hfront =>
    split at h
    · exact h
    · rw [String.toList_ofList, List.mem_reverse] at h
      have hdropped := (List.dropWhile_sublist _).subset (hfront ▸ List.mem_cons_of_mem _ h)
      exact List.mem_reverse.mp hdropped

/-- The name of a file without its extension has no slash. -/
theorem not_mem_stem (path : String) : '/' ∉ (stem path).toList :=
  fun h => not_mem_baseName path (mem_of_mem_dropExtension h)

end Path

/-! ## Names of files -/

/-- A name of a file: it has no slash, and its bytes name no directory that is there already. -/
structure IsFileName (name : String) : Prop where
  slash : '/' ∉ name.toList
  follow : ∀ place, Path.follow place (byteText name) = byteText name :: place

namespace FileTree

variable {t : FileTree} {place other : Place} {folder name : String}

/-- The place that the path of a directory leads to, whatever its size. -/
def directoryPlace (t : FileTree) (path : String) : Except FileFault Place :=
  t.followFrom (t.start path) (Path.components path)

/-- Components are followed one part after the other. -/
theorem followFrom_append (t : FileTree) (place : Place) (front rest : List String) :
    t.followFrom place (front ++ rest) = t.followFrom place front >>= (t.followFrom · rest) := by
  induction front generalizing place with
  | nil => rfl
  | cons component front ih =>
    rw [List.cons_append, followFrom, followFrom]
    split
    · split
      · rfl
      · exact ih _
    · rfl
    · rfl

/-- A single component is followed from a directory. -/
theorem followFrom_singleton {component : String} (h : t.followFrom place [component] = .ok other) :
    t.node? place = some .directory ∧ other = Path.follow place (byteText component) := by
  unfold followFrom at h
  split at h
  · next hnode =>
    split at h
    · cases h
    · exact ⟨hnode, (Except.ok.inj h).symm⟩
  · cases h
  · cases h

/-- An empty component stays in a directory. -/
theorem followFrom_empty (h : t.node? place = some .directory) : t.followFrom place [""] = .ok place := by
  rw [followFrom, h]
  rfl

/-- A path that leads to a place has components that lead there. -/
theorem followFrom_of_follow {path : String} (h : t.follow path = .ok place) :
    t.followFrom (t.start path) (Path.components path) = .ok place := by
  unfold FileTree.follow followPath at h
  split at h
  · cases h
  · split at h
    · cases h
    · exact h

/-- The path of a file in a directory leads to a node of the file's name in the directory's place. -/
theorem follow_join (hname : IsFileName name) (h : t.follow (Path.join folder name) = .ok place) :
    ∃ outer, t.directoryPlace folder = .ok outer ∧ place = byteText name :: outer := by
  have hstart : t.start (Path.join folder name) = t.start folder := by
    rw [start, start, Path.isAbsolute_join hname.slash]
  obtain ⟨front, hjoined, hfolder⟩ := Path.components_join folder hname.slash
  have hplace := followFrom_of_follow h
  rw [hstart, hjoined, followFrom_append] at hplace
  obtain ⟨outer, houter, hlast⟩ := except_bind_eq_ok.mp hplace
  obtain ⟨hnode, rfl⟩ := followFrom_singleton hlast
  refine ⟨outer, ?_, hname.follow outer⟩
  rcases hfolder with hfolder | hfolder
  · rw [directoryPlace, hfolder, houter]
  · rw [directoryPlace, hfolder, followFrom_append, houter]
    exact followFrom_empty hnode

end FileTree

/-! ## Bytes of names -/

/-- Characters hold at least half as many symbols. -/
theorem length_le_symbols (cs : List Char) : cs.length ≤ 2 * (symbols cs).length := by
  fun_induction symbols cs with
  | case1 => exact Nat.le_refl 0
  | case2 c => exact Nat.le_succ 1
  | case3 d rest ih =>
    simp only [List.length_cons]
    omega
  | case4 c d rest hmark ih =>
    simp only [List.length_cons] at ih ⊢
    omega

/-- A row of symbols stands for at least as many bytes. -/
theorem length_le_rowBytes {row : List Symbol} {bytes : List UInt8} (h : rowBytes? row = some bytes) :
    row.length ≤ bytes.length := by
  induction row generalizing bytes with
  | nil => exact Nat.zero_le _
  | cons s rest ih =>
    obtain ⟨first, hfirst, h⟩ := Option.bind_eq_some_iff.mp h
    obtain ⟨others, hothers, h⟩ := Option.bind_eq_some_iff.mp h
    obtain rfl := Option.some.inj h
    have hrest := ih hothers
    have hpos : 0 < first.length := by
      cases s with
      | char c =>
        rw [← Option.some.inj hfirst, String.length_utf8EncodeChar]
        exact c.utf8Size_pos
      | half index =>
        rw [Symbol.bytes?] at hfirst
        split at hfirst
        · rw [← Option.some.inj hfirst]
          exact Nat.one_pos
        · cases hfirst
    rw [List.length_cons, List.length_append]
    omega

/-- A text has at most twice as many characters as bytes. -/
theorem length_le_bytes {text : String} {bytes : List UInt8} (h : bytes? text = some bytes) :
    text.toList.length ≤ 2 * bytes.length := by
  have hsymbols := length_le_symbols text.toList
  have hbytes := length_le_rowBytes h
  omega

/-- The text of a row of bytes stands for it. -/
theorem bytes?_ofBytes (bytes : List UInt8) : bytes? (ofBytes bytes) = some bytes := by
  rw [bytes?, ofBytes, ofSymbols, String.toList_ofList, symbols_flatMap_held, rowBytes?_byteSymbols]

/-- A text of a few ASCII characters has as many bytes, so the bytes of a longer text have another text. -/
theorem byteText_ne {name text : String} {bytes : List UInt8} (htext : bytes? text = some bytes)
    (hlong : 2 * bytes.length < name.toList.length) : byteText name ≠ text := by
  intro h
  unfold byteText at h
  cases hname : bytes? name with
  | none =>
    rw [hname] at h
    obtain rfl : name = text := h
    rw [hname] at htext
    cases htext
  | some found =>
    rw [hname] at h
    obtain rfl : ofBytes found = text := h
    rw [bytes?_ofBytes] at htext
    obtain rfl := Option.some.inj htext
    exact absurd (length_le_bytes hname) (Nat.not_le.mpr hlong)

/-- The bytes of a name that has more than four characters name no directory that is there already. -/
theorem follow_byteText {name : String} (hlong : 4 < name.toList.length) (place : Place) :
    Path.follow place (byteText name) = byteText name :: place := by
  have hempty : bytes? "" = some [] := rfl
  have hdot : bytes? "." = some [46] := rfl
  have hdots : bytes? ".." = some [46, 46] := rfl
  rw [Path.follow, if_neg (not_or.mpr ⟨byteText_ne hempty ?_, byteText_ne hdot ?_⟩), if_neg (byteText_ne hdots hlong)]
  · exact Nat.zero_lt_of_lt hlong
  · exact Nat.lt_of_le_of_lt (by decide) hlong

end TensorBridge
