import TensorBridge.Command.Run

/-!
# The command line

The outer layer: it takes the part of the disk that a command looks at as a file tree, runs the command
on it, and carries out what has changed.
-/

namespace TensorBridge

/-- The path of a place on the disk. -/
def diskPath (place : Place) : String := plain ("/" ++ String.intercalate "/" place.reverse)

/-- Takes what stands on the way along some components, and at its end, from the disk. -/
def takeAlong (t : FileTree) (place : Place) : List String → IO FileTree
  | [] => return t
  | component :: rest => do
    let next := Path.follow place (byteText component)
    let path := (← IO.currentDir) / diskPath next
    if (t.node? next).isSome then takeAlong t next rest
    else if ← path.isDir then takeAlong (t.set next .directory) next rest
    else if ← path.pathExists then
      return t.set next (.text (textOf (← IO.FS.readFile path)))
    else return t

/-- Takes what the paths of a command lead through from the disk. -/
def takePaths (t : FileTree) : List String → IO FileTree
  | [] => return t
  | path :: rest => do takePaths (← takeAlong t (t.start path) (Path.components path)) rest

/-- Brings one node of a tree to the disk. -/
def putNode (place : Place) : Node → IO Unit
  | .directory => IO.FS.createDirAll (diskPath place)
  | .text content => IO.FS.writeFile (diskPath place) (plain content)

/-- The variable of the environment that names the threshold of the log. -/
def thresholdVariable : String := "TFCV_OPGEN_LOG_LEVEL"

/-- A text as it is written to an output. -/
def shown (text : String) : String := plain (escapeHalves text)

/-- Runs the program on the disk. -/
def runOnDisk (words : List String) : IO UInt32 := do
  let .ok threshold := thresholdOf none ((← IO.getEnv thresholdVariable).map textOf)
    | IO.eprintln "The environment names no threshold for the log."
      return 1
  let words := words.map textOf
  let working := ((Path.components (textOf (← IO.currentDir).toString)).foldl Path.follow [])
  let start := FileTree.empty working
  let files ←
    match Command.ofWords words with
    | some command => takePaths start (command.paths start)
    | none => pure start
  let run := runWords files words
  for (place, node) in run.files.nodes do
    if files.node? place ≠ some node then putNode place node
  IO.eprint (shown (run.errorText threshold))
  match run.ending with
  | .misused =>
    IO.eprintln "Usage: render SPEC... | shape TOKEN... | wrapper LIBRARY OPERATOR..."
    return CommandRun.misusedCode.toUInt32
  | .help =>
    IO.println "Usage: render SPEC... | shape TOKEN... | wrapper LIBRARY OPERATOR..."
    return 0
  | .finished code output _ =>
    IO.print (shown output)
    return code.toUInt32
  | .broken _ =>
    IO.eprintln "The command broke off."
    return 1

end TensorBridge

/-- Runs the program on its arguments. -/
def main (words : List String) : IO UInt32 := TensorBridge.runOnDisk words
