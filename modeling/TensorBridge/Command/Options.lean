/-!
# Options on a command line

Words of a command line are options or arguments. A long option is named in full; its value follows an
equals sign or is the next word. An option of one letter has its value attached or as the next word. Two
dashes alone end the options. A command may ask that its first argument ends them too.
-/

namespace TensorBridge

/-- An option of a command. All options of one letter take a value. -/
structure OptionForm where
  name : String
  letter : Option Char
  takesValue : Bool
deriving DecidableEq, Repr

/-- A use of an option, by the option's name. -/
structure OptionUse where
  name : String
  value : String
deriving DecidableEq, Repr

/-- The words of a command line, told apart. -/
structure ParsedWords where
  options : List OptionUse
  arguments : List String
deriving DecidableEq, Repr

namespace ParsedWords

/-- Nothing but arguments. -/
def ofArguments (arguments : List String) : ParsedWords := { options := [], arguments }

/-- With a use of an option in front. -/
def withOption (name value : String) (words : ParsedWords) : ParsedWords :=
  { words with options := ⟨name, value⟩ :: words.options }

/-- With an argument in front. -/
def withArgument (argument : String) (words : ParsedWords) : ParsedWords :=
  { words with arguments := argument :: words.arguments }

/-- The values of an option in the order of its uses. -/
def valuesOf (words : ParsedWords) (name : String) : List String :=
  (words.options.filter (·.name == name)).map (·.value)

/-- The value of an option's last use. -/
def lastValue? (words : ParsedWords) (name : String) : Option String := (words.valuesOf name).getLast?

/-- Whether an option is used. -/
def uses (words : ParsedWords) (name : String) : Bool := words.options.any (·.name == name)

end ParsedWords

/-- What a word of a command line is. -/
inductive WordKind
  | argument
  | endOfOptions
  | option (form : OptionForm) (attached : Option String)
  | unknown

/-- The option of a name. -/
def findLong? (forms : List OptionForm) (name : List Char) : Option OptionForm :=
  forms.find? (·.name.toList == name)

/-- The option of a letter. -/
def findLetter? (forms : List OptionForm) (letter : Char) : Option OptionForm :=
  forms.find? (·.letter == some letter)

/-- A text that is attached to an option, if there is one. -/
def attachedText (cs : List Char) : Option String :=
  match cs with
  | [] => none
  | _ => some (String.ofList cs)

/-- What a word is. -/
def classifyWord (forms : List OptionForm) (word : String) : WordKind :=
  match word.toList with
  | ['-', '-'] => .endOfOptions
  | '-' :: '-' :: text =>
    match findLong? forms (text.takeWhile (· ≠ '=')) with
    | none => .unknown
    | some form =>
      match text.dropWhile (· ≠ '=') with
      | [] => .option form none
      | _ :: value => .option form (some (String.ofList value))
  | '-' :: letter :: rest =>
    match findLetter? forms letter with
    | none => .unknown
    | some form => .option form (attachedText rest)
  | _ => .argument

/-- Tells the words of a command line apart, if all its options are known and have the values that they
take. With `mixed`, options may also follow arguments. -/
def parseWords (forms : List OptionForm) (mixed : Bool) : List String → Option ParsedWords
  | [] => some (.ofArguments [])
  | word :: rest =>
    match classifyWord forms word with
    | .unknown => none
    | .endOfOptions => some (.ofArguments rest)
    | .argument =>
      if mixed then (parseWords forms mixed rest).map (.withArgument word)
      else some (.ofArguments (word :: rest))
    | .option form attached =>
      if form.takesValue then
        match attached with
        | some value => (parseWords forms mixed rest).map (.withOption form.name value)
        | none =>
          match rest with
          | [] => none
          | value :: rest => (parseWords forms mixed rest).map (.withOption form.name value)
      else if attached.isSome then none
      else (parseWords forms mixed rest).map (.withOption form.name "")

end TensorBridge
