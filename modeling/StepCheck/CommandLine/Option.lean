import StepCheck.Text.Blank
import StepCheck.Text.Quoted
import StepCheck.Text.Search
import StepCheck.Text.Similarity

/-!
# Options and arguments

The words behind a command are options, values of options, and arguments. Options may stand between
arguments, a value may be joined to its option by an equals sign, and behind a double hyphen all
words are arguments.

* `OptionSpec`, `CommandSpec` — what a command takes;
* `CommandSpec.read` — the options and arguments among words;
* `UsageError` — what is wrong with words, with its text (`UsageError.message`).
-/

namespace StepCheck

/-- **What an option takes.** -/
inductive ValueKind
  /-- Nothing. -/
  | flag
  /-- The path of a file. -/
  | file
  /-- One of some words. -/
  | choice (words : List Text)
  /-- A whole number of at least `least`. -/
  | count (least : Int)
deriving DecidableEq

/-- **An option** of a command. -/
structure OptionSpec where
  /-- The name, hyphens included. -/
  name : Text
  kind : ValueKind
  /-- What the option is for. -/
  help : Text

/-- **A command.** -/
structure CommandSpec where
  /-- The words by which the command is called. -/
  call : Text
  /-- What is said about the words behind it. -/
  arguments : Text
  /-- What the command does. -/
  summary : Text
  options : List OptionSpec
  /-- Whether options may stand behind an argument. -/
  interspersed : Bool

/-- **What is wrong** with the words of a call. -/
inductive UsageError
  | unknownOption (name : Text) (similar : List Text)
  | unknownCommand (name : Text) (similar : List Text)
  | missingCommand
  | missingArgument (name : Text)
  | extraArguments (words : List Text)
  /-- An option stands at the end without its value. -/
  | missingValue (option : Text)
  /-- A value is joined to an option that takes none. -/
  | unwantedValue (option : Text)
  | folder (parameter path : Text)
  /-- A file may not be read. -/
  | locked (parameter path : Text)
  | noChoice (parameter word : Text) (words : List Text)
  | noCount (parameter word : Text)
  | belowLeast (parameter : Text) (value least : Int)
deriving DecidableEq

namespace UsageError

/-- A suggestion behind the text about a misspelt word. -/
def suggestion (words : List Text) : Text :=
  match words with
  | [] => []
  | [w] => " Did you mean " ++ w.quoted ++ "?"
  | ws => " (Did you mean one of: " ++ Text.join ", " (ws.map Text.quoted) ++ "?)"

/-- The text about the value of a parameter. -/
def aboutValue (parameter problem : Text) : Text :=
  "Invalid value for '" ++ parameter ++ "': " ++ problem

/-- The text of an error. -/
def message : UsageError → Text
  | unknownOption name similar => "No such option " ++ name.quoted ++ "." ++ suggestion similar
  | unknownCommand name similar => "No such command " ++ name.quoted ++ "." ++ suggestion similar
  | missingCommand => "Missing command."
  | missingArgument name => "Missing argument '" ++ name ++ "'."
  | extraArguments words =>
    Text.ofString (if words.length = 1 then "Got unexpected extra argument ("
      else "Got unexpected extra arguments (") ++ Text.join " " words ++ ")"
  | missingValue option => "Option " ++ option.quoted ++ " requires an argument."
  | unwantedValue option => "Option " ++ option.quoted ++ " does not take a value."
  | folder parameter path =>
    aboutValue parameter ("File " ++ path.quoted ++ " is a directory.")
  | locked parameter path =>
    aboutValue parameter ("File " ++ path.quoted ++ " is not readable.")
  | noChoice parameter word words =>
    aboutValue parameter (word.quoted ++ " is not one of "
      ++ Text.join ", " (words.map Text.quoted) ++ ".")
  | noCount parameter word => aboutValue parameter (word.quoted ++ " is not a valid integer range.")
  | belowLeast parameter value least =>
    aboutValue parameter (Text.ofInt value ++ " is not in the range x>=" ++ Text.ofInt least ++ ".")

/-- Whether the usage of the command is shown together with an error. -/
def showsUsage : UsageError → Bool
  | missingValue _ => false
  | unwantedValue _ => false
  | _ => true

end UsageError

/-- **What has been read** from words. -/
structure Given where
  /-- The options with their values, in the order of the words. -/
  options : List (Text × Text)
  arguments : List Text
deriving DecidableEq

namespace Given

/-- The value of an option. Of several ones the last counts. -/
def value? (g : Given) (option : Text) : Option Text :=
  (g.options.reverse.find? fun (name, _) => name = option).map Prod.snd

/-- Whether an option is given. -/
def has (g : Given) (option : Text) : Bool := (g.value? option).isSome

end Given

namespace CommandSpec

/-- The option that shows the help. -/
def helpOption : OptionSpec := ⟨"--help", .flag, "Show this message and exit."⟩

/-- All options of a command. -/
def allOptions (c : CommandSpec) : List OptionSpec := c.options ++ [helpOption]

/-- The option of a name. -/
def option? (c : CommandSpec) (name : Text) : Option OptionSpec :=
  c.allOptions.find? fun o => o.name = name

/-- The error about a word that is no option. A word with a single hyphen counts as a bundle of
options of one letter. -/
def unknown (c : CommandSpec) (word name : Text) : UsageError :=
  if word.take 2 = Text.ofString "--" then
    .unknownOption name (Text.similar name (c.allOptions.map OptionSpec.name))
  else .unknownOption (word.take 2) []

/-- The double hyphen, behind which there are only arguments. -/
def endOfOptions : Text := "--"

/-- Whether a word is meant as an option. -/
def looksLikeOption (word : Text) : Bool :=
  word.head? = some (CodePoint.ofChar '-') && 1 < word.length

/-- The name of an option and the value joined to it. -/
def splitOption (word : Text) : Text × Option Text :=
  match Text.cutAt? word "=" with
  | some (name, value) => (name, some value)
  | none => (word, none)

/-- Words read from an option on whose value is awaited, or from any other place. -/
def readFrom (c : CommandSpec) (awaited : Option Text) : List Text → Except UsageError Given
  | [] =>
    match awaited with
    | some option => .error (.missingValue option)
    | none => .ok ⟨[], []⟩
  | word :: rest =>
    match awaited with
    | some option => do
      -- the value of the option, even if it looks like an option itself
      let g ← readFrom c none rest
      return { g with options := (option, word) :: g.options }
    | none =>
      -- whatever comes behind, all of it is arguments
      if word = endOfOptions then .ok ⟨[], rest⟩
      else if looksLikeOption word then
        let (name, joined) := splitOption word
        match c.option? name, joined with
        | none, _ => .error (c.unknown word name)
        | some o, joined =>
          match decide (o.kind = .flag), joined with
          | true, some _ => .error (.unwantedValue name)
          | true, none => do
            let g ← readFrom c none rest
            return { g with options := (name, []) :: g.options }
          | false, some value => do
            let g ← readFrom c none rest
            return { g with options := (name, value) :: g.options }
          | false, none => readFrom c (some name) rest
      else if c.interspersed then do
        let g ← readFrom c none rest
        return { g with arguments := word :: g.arguments }
      -- the first argument ends the options of this command
      else .ok ⟨[], word :: rest⟩

/-- **The options and arguments** among words. -/
def read (c : CommandSpec) (words : List Text) : Except UsageError Given := c.readFrom none words

/-- The names of parameters in the order in which they are looked at: those of options that are
given, then the arguments, then all others as they are declared. -/
def order (c : CommandSpec) (g : Given) : List Text :=
  let given := (g.options.map Prod.fst).eraseDups
  given ++ [c.arguments] ++ (c.options.map OptionSpec.name).filter fun n => !given.contains n

end CommandSpec

end StepCheck
