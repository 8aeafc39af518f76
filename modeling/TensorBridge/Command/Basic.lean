import TensorBridge.Command.Options
import TensorBridge.Kernel.Source

/-!
# Commands

What a command line asks for: the kernels of some specification files, the classification of a shape,
the loader of a library, the version, or help. A command line that asks for nothing of these is misused.
A request may lack an argument; what its options say is looked at all the same.
-/

namespace TensorBridge

/-- A request of a command line. -/
inductive Command
  | help
  | version
  | render (specs : List String) (directory : Option String) (options : RenderOptions)
  | shape (tokens : List String) (asJson : Bool)
  | loader (library : String) (operators : List String) (output : Option String)
  | incomplete (output : Option String)
deriving DecidableEq, Repr

namespace Command

/-- The option that asks for help, which every command has. -/
def helpForm : OptionForm := ⟨"help", none, false⟩

/-- The options in front of the command's name. -/
def generalForms : List OptionForm := [⟨"version", none, false⟩, helpForm]

/-- The options of the command for kernels. -/
def renderForms : List OptionForm :=
  [⟨"output", some 'o', true⟩, ⟨"device", none, true⟩, ⟨"header", none, true⟩, ⟨"using", none, true⟩, helpForm]

/-- The options of the command for shapes. -/
def shapeForms : List OptionForm := [⟨"json", none, false⟩, helpForm]

/-- The options of the command for loaders. -/
def loaderForms : List OptionForm := [⟨"output", some 'o', true⟩, helpForm]

/-- The request for kernels; it needs a specification file. -/
def ofRenderWords (words : ParsedWords) : Command :=
  let output := words.lastValue? "output"
  if words.uses "help" then .help
  else if words.arguments.isEmpty then .incomplete output
  else
    .render words.arguments output
      { device := words.lastValue? "device"
        header := words.lastValue? "header"
        namespaces := words.valuesOf "using" }

/-- The request for a shape; it needs a token. -/
def ofShapeWords (words : ParsedWords) : Command :=
  if words.uses "help" then .help
  else if words.arguments.isEmpty then .incomplete none
  else .shape words.arguments (words.uses "json")

/-- The request for a loader; it needs a library and an operator. -/
def ofLoaderWords (words : ParsedWords) : Command :=
  let output := words.lastValue? "output"
  if words.uses "help" then .help
  else
    match words.arguments with
    | library :: operator :: operators => .loader library (operator :: operators) output
    | _ => .incomplete output

/-- The request of general options: the first of them counts. -/
def ofGeneralOptions (options : List OptionUse) : Option Command :=
  options.head?.map fun first => if first.name = "help" then .help else .version

/-- The request of a command by its name. In place of a name, behind the end of the options, a general
option may stand after all. -/
def ofNamed (name : String) (rest : List String) : Option Command :=
  if name = "render" then (parseWords renderForms true rest).map ofRenderWords
  else if name = "shape" then (parseWords shapeForms true rest).map ofShapeWords
  else if name = "wrapper" then (parseWords loaderForms true rest).map ofLoaderWords
  else (parseWords generalForms false (name :: rest)).bind fun general => ofGeneralOptions general.options

/-- The request of a command line. -/
def ofWords (words : List String) : Option Command := do
  let general ← parseWords generalForms false words
  match ofGeneralOptions general.options, general.arguments with
  | some command, _ => some command
  | none, [] => none
  | none, name :: rest => ofNamed name rest

end Command

end TensorBridge
