import TensorBridge.Command.Basic
import TensorBridge.Kernel.Output
import TensorBridge.Text.ControlSequence
import TensorBridge.Value.Writer

/-!
# Running commands

A command runs on a file tree and ends in one of four ways: it is misused, it asks for help, it comes to
an end with an exit code, an output and a report of what went wrong, or a fault breaks it off. Paths are
checked before any work starts. Specification files are worked off one by one; the first refusal ends the
run, and what was written before stays written. The outputs are for no terminal: they hold no halves of
surrogate pairs and, apart from the log, no control sequences. The log goes to the output for errors while
the run lasts, so its lines stand there in front of the report.
-/

namespace TensorBridge

/-- How a command ends; at an end that it comes to by itself, `errors` is its report of what went wrong. -/
inductive Ending
  | misused
  | help
  | finished (exitCode : Nat) (output errors : String)
  | broken (fault : Fault)
deriving DecidableEq, Repr

/-- The run of a command: how it ends, the files after it, and its records. -/
structure CommandRun where
  ending : Ending
  files : FileTree
  records : List Record

namespace CommandRun

/-- The run that ends with some files and records. -/
def ended (files : FileTree) (records : List Record) (ending : Ending) : CommandRun :=
  { ending, files, records }

/-- What a run leaves on the output for errors: the lines of the log, and the report. Halves of surrogate
pairs are escaped there. -/
def errorText (threshold : Threshold) (run : CommandRun) : String :=
  let report :=
    match run.ending with
    | .finished _ _ errors => errors
    | _ => ""
  escapeHalves (logText threshold run.records) ++ report

/-- The exit code of a run that a refusal ends. -/
def refusedCode : Nat := 1

/-- The exit code of a misused command. -/
def misusedCode : Nat := 2

/-- The ending with an output and a report. The output has to have an encoding; in the report, halves of
surrogate pairs are escaped. -/
def endingWith (exitCode : Nat) (output errors : String) : Ending :=
  if isEncodable output then
    .finished exitCode (withoutControl output) (escapeHalves (withoutControl errors))
  else .broken .unencodable

/-- The ending by an error: a refusal is reported, with a text in front, and a fault breaks the run off.
-/
def endingBy (output context : String) : Error → Ending
  | .refusal refusal => endingWith refusedCode output ("Error: " ++ context ++ refusal.message ++ "\n")
  | .fault fault => .broken fault

end CommandRun

/-- The version that the program names. -/
def programVersion : String := "0.3.0"

namespace Command

/-- The ending of a command at a path: a text that is no path breaks it off, and it is misused if what
stands there does not fit. -/
def endingAt? (files : FileTree) (fits : Option Node → Bool) (path : String) : Option Ending :=
  match FileTree.textFault? path with
  | some fault => some (.broken fault)
  | none => if fits (files.find? path) then none else some .misused

/-- The ending of a command before any work, at the first of its paths that may not be used as it asks:
an output directory is no text, specification files are texts, and an output file is no directory. -/
def endingAtPaths? (files : FileTree) : Command → Option Ending
  | .render specs directory _ =>
    (directory.bind (endingAt? files fun node => !isText node)) <|> specs.findSome? (endingAt? files isText)
  | .loader _ _ output => output.bind (endingAt? files (· ≠ some .directory))
  | .incomplete output => output.bind (endingAt? files fun _ => true)
  | _ => none
where
  /-- Whether a text stands at a place. -/
  isText : Option Node → Bool
    | some (.text _) => true
    | _ => false

/-- Renders specification files one by one; `output` and `records` are those of the files before. Each
file is reported before the next one is read, and a report without an encoding breaks the run off. -/
def renderAll (directory : Option String) (options : RenderOptions) (output : String) (records : List Record) :
    FileTree → List String → CommandRun
  | files, [] => .ended files records (CommandRun.endingWith 0 output "")
  | files, spec :: rest =>
    let step := writeKernel files spec directory options
    let records := records ++ step.result.records
    match step.result.outcome with
    | .error e => .ended step.files records (CommandRun.endingBy output (spec ++ ": ") e)
    | .ok written =>
      let report := spec ++ " -> " ++ written.path ++ "\n"
      if isEncodable report then renderAll directory options (output ++ report) records step.files rest
      else .ended step.files records (.broken .unencodable)

/-- The classification of a shape as data. -/
def shapeData (tokens : List String) (s : Shape) : Value :=
  .object [
    ("tokens", .array (tokens.map .string)),
    ("kind", .string s.kind.name),
    ("array_rank", .int s.tensorRank),
    ("block_rank", .int s.rank),
    ("vector_dims", .int s.vectorRank),
    ("block_dims", .int s.blockRank),
    ("dims", .array (s.dims.map fun d => .string d.text)),
    ("data", .string s.element.canonical),
    ("channels", .int s.element.channels),
    ("container", .string s.element.container.name),
    ("declaration", .string s.declaredType),
    ("element_declaration", (s.blockType?.map Value.string).getD .null)]

/-- The classification of a shape for a reader. -/
def shapeReport (s : Shape) : String :=
  unlines [
    "kind:         " ++ s.kind.name,
    "declaration:  " ++ s.declaredType,
    "tensor rank:  " ++ toString s.tensorRank,
    "block rank:   " ++ toString s.rank ++ " (" ++ toString s.vectorRank ++ " vector, " ++
      toString s.blockRank ++ " block)",
    "element:      " ++ s.element.valueType,
    ""]

/-- Classifies a shape. -/
def runShape (files : FileTree) (tokens : List String) (asJson : Bool) : CommandRun :=
  let reading := Shape.read (.array (tokens.map .string))
  .ended files reading.records <|
    match reading.outcome with
    | .error e => CommandRun.endingBy "" "" e
    | .ok s =>
      CommandRun.endingWith 0 (if asJson then (shapeData tokens s).write 0 ++ "\n" else shapeReport s) ""

/-- Writes a loader to a path, or to the output. -/
def runLoader (files : FileTree) (library : String) (operators : List String) (output : Option String) :
    CommandRun :=
  match output with
  | none => .ended files [] (CommandRun.endingWith 0 (loaderText operators library) "")
  | some path =>
    let step := writeLoader files operators library path
    .ended step.files step.result.records <|
      match step.result.outcome with
      | .error e => CommandRun.endingBy "" "" e
      | .ok _ => CommandRun.endingWith 0 ("Wrote " ++ path ++ "\n") ""

/-- The texts that a request takes for paths. -/
def pathTexts (files : FileTree) : Command → List String
  | .render specs directory _ =>
    specs ++ directory.toList ++ specs.map (kernelPath files · directory)
  | .loader _ _ (some path) => [Path.directory (Path.absolute files.workingPath path), path]
  | _ => []

/-- The paths that a request looks at or writes to. -/
def paths (files : FileTree) (command : Command) : List String :=
  (command.pathTexts files).filter fun path => (FileTree.textFault? path).isNone

/-- Runs a request whose paths may be used as it asks. -/
def runChecked (files : FileTree) : Command → CommandRun
  | .help => .ended files [] .help
  | .version =>
    .ended files [] (CommandRun.endingWith 0 ("tfcv-opgen, version " ++ programVersion ++ "\n") "")
  | .render specs directory options => renderAll directory options "" [] files specs
  | .shape tokens asJson => runShape files tokens asJson
  | .loader library operators output => runLoader files library operators output
  | .incomplete _ => .ended files [] .misused

/-- Runs a request. -/
def run (files : FileTree) (command : Command) : CommandRun :=
  match command.endingAtPaths? files with
  | some ending => .ended files [] ending
  | none => command.runChecked files

end Command

/-- Runs a command line. -/
def runWords (files : FileTree) (words : List String) : CommandRun :=
  match Command.ofWords words with
  | none => .ended files [] .misused
  | some command => command.run files

end TensorBridge
