import TensorBridge.Files.Tree
import TensorBridge.Kernel.Loader
import TensorBridge.Kernel.Source
import TensorBridge.Operator.Reader

/-!
# Kernels in files

Kernels are rendered from specification files and written beside them or into another directory; loaders
are written to a path. Nothing is made or written unless the text is complete, and a note says what was
written. Only a text without an encoding leaves its file behind, emptied.
-/

namespace TensorBridge

/-- Reads the operator that a specification file describes; the file's name stands in for names that are
left out. -/
def Operator.load (t : FileTree) (path : String) : Traced Operator :=
  match t.read path with
  | .error (.file fault) => Traced.ofExcept (refuse (.spec (.unreadable path fault)))
  | .error fault => Traced.ofExcept (.error (.fault fault))
  | .ok text =>
    match Value.ofText text with
    | .error (.malformed flaw rest) => Traced.ofExcept (refuse (.spec (.malformed path (flaw.placed text rest))))
    | .error .numeralTooLong => Traced.ofExcept (.error (.fault .numeralTooLong))
    | .error .nestedTooDeep => Traced.ofExcept (.error (.fault .nestedTooDeep))
    | .ok data => Operator.read data (Path.stem path)

/-- The name of the file for the kernel of a specification file. -/
def kernelFileName (specPath : String) : String := Path.stem specPath ++ "_op.cc"

/-- The directory for the kernel of a specification file: the given one, or else the file's own. -/
def kernelDirectory (t : FileTree) (specPath : String) (directory : Option String) : String :=
  givenText directory (Path.directory (Path.absolute t.workingPath specPath))

/-- The path of the kernel of a specification file. -/
def kernelPath (t : FileTree) (specPath : String) (directory : Option String) : String :=
  Path.join (kernelDirectory t specPath directory) (kernelFileName specPath)

/-- The note of a written file. -/
def writtenRecord (path : String) : Record :=
  { level := .info, source := .kernels, message := "wrote " ++ path }

/-- A file that has been written. -/
structure Written where
  path : String
  content : String

/-- An attempt to write a file: the files after it, and the file that was written if it went well. -/
structure Writing where
  files : FileTree
  result : Traced Written

/-- An attempt for which something has to be found first; without it, the files stay as they are. -/
def Writing.after {α : Type} (t : FileTree) (first : Traced α) (next : α → Writing) : Writing :=
  { files :=
      match first.outcome with
      | .error _ => t
      | .ok a => (next a).files
    result := first >>= fun a => (next a).result }

/-- Writes a text to a path in a directory that is made if need be. -/
def writeInto (t : FileTree) (directory path content : String) : Writing :=
  .after t (Traced.ofExcept ((t.makeDirectories directory).mapError .fault)) fun made =>
    let change := made.write path content
    { files := change.files
      result := do
        Traced.ofExcept (change.outcome.mapError .fault)
        Traced.record [writtenRecord path]
        return { path, content } }

/-- Writes the kernel of a specification file. -/
def writeKernel (t : FileTree) (specPath : String) (directory : Option String) (options : RenderOptions) :
    Writing :=
  .after t ((Operator.load t specPath).bind (·.render options))
    (writeInto t (kernelDirectory t specPath directory) (kernelPath t specPath directory))

/-- Writes the loader of some operators of a library. -/
def writeLoader (t : FileTree) (operators : List String) (library path : String) : Writing :=
  writeInto t (Path.directory (Path.absolute t.workingPath path)) path (loaderText operators library)

end TensorBridge
