import TensorBridge.Text.Lines

/-!
# Paths

Paths are texts whose components stand between slashes. A path that starts with a slash is absolute. The
functions here only look at the text; what a path leads to is a question for a file tree.
-/

namespace TensorBridge.Path

/-- The pieces between slashes. -/
def split (cs : List Char) : List (List Char) :=
  match cs with
  | [] => [[]]
  | c :: rest => if c = '/' then [] :: split rest else consLine c (split rest)

/-- The components of a path; some may be empty. -/
def components (path : String) : List String := (split path.toList).map String.ofList

/-- Whether a path is absolute. -/
def isAbsolute (path : String) : Bool := path.toList.head? == some '/'

/-- The part of a path behind its last slash. -/
def baseName (path : String) : String :=
  String.ofList (path.toList.reverse.takeWhile (· ≠ '/')).reverse

/-- The part of a path in front of its last slash; slashes at the end of that part are dropped, unless
it has nothing else. -/
def directory (path : String) : String :=
  let front := path.toList.reverse.dropWhile (· ≠ '/')
  String.ofList <|
    match front.dropWhile (· = '/') with
    | [] => front.reverse
    | kept => kept.reverse

/-- A name without its extension: the part from the last dot on, unless only dots stand in front of that
dot. -/
def dropExtension (name : String) : String :=
  match name.toList.reverse.dropWhile (· ≠ '.') with
  | [] => name
  | _ :: front => if front.all (· = '.') then name else String.ofList front.reverse

/-- The name of the file that a path leads to, without its extension. -/
def stem (path : String) : String := dropExtension (baseName path)

/-- A path relative to another one; an absolute path stays as it is. -/
def join (base path : String) : String :=
  if isAbsolute path then path
  else if base.isEmpty || base.toList.getLast? == some '/' then base ++ path
  else base ++ "/" ++ path

/-- Goes on from a row of components, innermost first, by one component. -/
def follow (place : List String) (component : String) : List String :=
  if component = "" ∨ component = "." then place
  else if component = ".." then place.drop 1
  else component :: place

/-- The slashes that an absolute path starts with: two stay two, any other number counts as one. -/
def leadingSlashes (path : String) : String :=
  match path.toList with
  | '/' :: '/' :: '/' :: _ => "/"
  | '/' :: '/' :: _ => "//"
  | _ => "/"

/-- A path as an absolute one, its components followed on paper: no empty ones, no dots. -/
def absolute (workingDirectory path : String) : String :=
  let full := join workingDirectory path
  leadingSlashes full ++ String.intercalate "/" ((components full).foldl follow []).reverse

end TensorBridge.Path
