import TensorBridge.Error
import TensorBridge.Files.Path
import TensorBridge.Text.Bytes
import TensorBridge.Text.Lines

/-!
# File trees

Files as a value: a map from places to texts and directories, with a working directory. A place is the
row of components on the way to it from the root, innermost first; each is the text of the bytes that
are its name. A path is followed component by component, and every component needs a directory to start
from, also an empty one and a dot. Names and paths have a longest size. A text with a null character, or
that stands for no bytes, is no path at all.
-/

namespace TensorBridge

/-- A row of components from the root, innermost first. -/
abbrev Place : Type := List String

/-- What stands at a place. -/
inductive Node
  | directory
  | text (content : String)
deriving DecidableEq, Repr

/-- Files and directories. -/
structure FileTree where
  workingPlace : Place
  nodes : List (Place × Node)

namespace FileTree

/-- A place and those above it, down from the root. -/
def placesTo : Place → List Place
  | [] => []
  | component :: rest => placesTo rest ++ [component :: rest]

/-- A tree with nothing but a working directory and those above it. -/
def empty (workingPlace : Place) : FileTree :=
  { workingPlace, nodes := (placesTo workingPlace).map (·, .directory) }

/-- The working directory as a path. -/
def workingPath (t : FileTree) : String := "/" ++ String.intercalate "/" t.workingPlace.reverse

/-- What stands at a place; the root is a directory. -/
def node? (t : FileTree) (place : Place) : Option Node :=
  if place.isEmpty then some .directory else t.nodes.lookup place

/-- Puts a node in its place, in the old one's stead if there is one. -/
def setNode (place : Place) (node : Node) : List (Place × Node) → List (Place × Node)
  | [] => [(place, node)]
  | (other, old) :: rest =>
    if other = place then (place, node) :: rest else (other, old) :: setNode place node rest

/-- The tree with a node at a place. -/
def set (t : FileTree) (place : Place) (node : Node) : FileTree :=
  { t with nodes := setNode place node t.nodes }

/-- A node that is put in its place is found there. -/
theorem lookup_setNode_self (place : Place) (node : Node) (nodes : List (Place × Node)) :
    (setNode place node nodes).lookup place = some node := by
  induction nodes with
  | nil => simp [setNode]
  | cons entry rest ih =>
    obtain ⟨other, old⟩ := entry
    unfold setNode
    split
    · simp
    · next h => simp [List.lookup_cons, beq_eq_false_iff_ne.mpr (Ne.symm h), ih]

/-- Putting a node in its place leaves the others. -/
theorem lookup_setNode_of_ne {place other : Place} (h : other ≠ place) (node : Node)
    (nodes : List (Place × Node)) :
    (setNode place node nodes).lookup other = nodes.lookup other := by
  induction nodes with
  | nil => simp [setNode, List.lookup_cons, beq_eq_false_iff_ne.mpr h]
  | cons entry rest ih =>
    obtain ⟨first, old⟩ := entry
    unfold setNode
    split
    · next hfirst => subst hfirst; simp [List.lookup_cons, beq_eq_false_iff_ne.mpr h]
    · simp only [List.lookup_cons, ih]

/-- Where a path starts. -/
def start (t : FileTree) (path : String) : Place := if Path.isAbsolute path then [] else t.workingPlace

/-- The greatest size of a name in bytes. -/
def maxNameSize : Nat := 255

/-- The greatest size of a path in bytes. -/
def maxPathSize : Nat := 4095

/-- What keeps a text from being a path. -/
def textFault? (path : String) : Option Fault :=
  if (bytes? path).isNone then some .unencodable
  else if path.toList.contains '\x00' then some .nullInPath
  else none

/-- A step with a path, unless its text is no path. -/
def withPath {α : Type} (path : String) (step : Except FileFault α) : Except Fault α :=
  match textFault? path with
  | some fault => .error fault
  | none => step.mapError .file

/-- Follows components from a place. -/
def followFrom (t : FileTree) (place : Place) : List String → Except FileFault Place
  | [] => .ok place
  | component :: rest =>
    match t.node? place with
    | some .directory =>
      if maxNameSize < byteCount component then .error .nameTooLong
      else followFrom t (Path.follow place (byteText component)) rest
    | some (.text _) => .error .notDirectory
    | none => .error .missing

/-- Follows components from where a path starts. -/
def followPath (t : FileTree) (path : String) (components : List String) : Except FileFault Place :=
  if path.isEmpty then .error .missing
  else if maxPathSize < byteCount path then .error .nameTooLong
  else t.followFrom (t.start path) components

/-- The place that a path leads to; nothing needs to stand there. -/
def follow (t : FileTree) (path : String) : Except FileFault Place :=
  t.followPath path (Path.components path)

/-- What a path leads to. -/
def find? (t : FileTree) (path : String) : Option Node :=
  match t.follow path with
  | .ok place => t.node? place
  | .error _ => none

/-- The text that is read where a path leads to one. -/
def read (t : FileTree) (path : String) : Except Fault String :=
  withPath path do
    match t.node? (← t.follow path) with
    | some (.text content) => .ok (withLineFeeds content)
    | some .directory => .error .isDirectory
    | none => .error .missing

/-- The components of a path without the empty ones. -/
def namedComponents (path : String) : List String := (Path.components path).filter (!·.isEmpty)

/-- The place of a file that may be written to. The directory has to be there; a path that ends in a
slash names a directory, whatever stands there. -/
def fileToWrite (t : FileTree) (path : String) : Except Fault Place :=
  withPath path do
    if path.toList.getLast? = some '/' then
      discard <| t.followPath path ((namedComponents path).dropLast ++ ["."])
      .error .isDirectory
    else
      let place ← t.follow path
      if t.node? place = some .directory then .error .isDirectory else return place

/-- A change that may fail: the tree after it, and whether it came to its end. -/
structure Change where
  files : FileTree
  outcome : Except Fault Unit

/-- Writes a text to a path. The file is emptied first, and stays empty if the text has no encoding. -/
def write (t : FileTree) (path content : String) : Change :=
  match t.fileToWrite path with
  | .error fault => { files := t, outcome := .error fault }
  | .ok place =>
    if isEncodable content then { files := t.set place (.text content), outcome := .ok () }
    else { files := t.set place (.text ""), outcome := .error .unencodable }

/-- A component of a path with the size of the path up to its end, in bytes. -/
structure Step where
  component : String
  reach : Nat

/-- The steps of a path, from the pieces between its slashes; `front` is the size of the path up to them,
and `total` its whole size. The last step reaches over the slashes behind it. -/
def stepsFrom (total front : Nat) : List String → List Step
  | [] => []
  | piece :: rest =>
    let size := front + byteCount piece
    let others := stepsFrom total (size + 1) rest
    if piece.isEmpty then others
    else { component := piece, reach := if others.isEmpty then total else size } :: others

/-- The steps of a path. -/
def steps (path : String) : List Step := stepsFrom (byteCount path) 0 (Path.components path)

/-- Makes the directories that steps lead through, as far as they are not there. Each of them is asked
for by the path up to it, so a path that is too long fails at the step that makes it so. -/
def makeFrom (t : FileTree) (place : Place) : List Step → Except Fault FileTree
  | [] =>
    match t.node? place with
    | some .directory => .ok t
    | some (.text _) => .error (.file .exists)
    | none => .error (.file .missing)
  | step :: rest =>
    match textFault? step.component with
    | some fault => .error fault
    | none =>
      if maxPathSize < step.reach then .error (.file .nameTooLong)
      else
        match t.node? place with
        | some .directory =>
          if maxNameSize < byteCount step.component then .error (.file .nameTooLong)
          else
            let next := Path.follow place (byteText step.component)
            makeFrom (if (t.node? next).isSome then t else t.set next .directory) next rest
        | some (.text _) => .error (.file .notDirectory)
        | none => .error (.file .missing)

/-- How many steps lead to nothing, from the first that does. -/
def missingFrom (t : FileTree) (place : Place) : List Step → Nat
  | [] => 0
  | step :: rest =>
    if maxPathSize < step.reach then rest.length + 1
    else
      match t.followFrom place [step.component] with
      | .ok next => if (t.node? next).isSome then missingFrom t next rest else rest.length + 1
      | .error _ => rest.length + 1

/-- How many directories one path may have made. -/
def maxMissing : Nat := 990

/-- Makes the directory that a path names, and those on the way, as far as they are not there. -/
def makeDirectories (t : FileTree) (path : String) : Except Fault FileTree :=
  if path.isEmpty then .error (.file .missing)
  else if maxMissing < t.missingFrom (t.start path) (steps path) then .error .nestedTooDeep
  else t.makeFrom (t.start path) (steps path)

/-! ## Comparing trees -/

/-- A place as a path from the working directory, if it lies in it. -/
def relativePath? (t : FileTree) (place : Place) : Option String :=
  let outer := t.workingPlace.reverse
  let inner := place.reverse.drop outer.length
  if place.reverse.take outer.length = outer then some (String.intercalate "/" inner) else none

/-- The texts in the working directory that another tree does not have in the same place, by path. -/
def newTexts (t before : FileTree) : List (String × String) :=
  t.nodes.filterMap fun (place, node) =>
    match node with
    | .directory => none
    | .text content =>
      if before.node? place = some node then none
      else (t.relativePath? place).map (·, content)

end FileTree

end TensorBridge
