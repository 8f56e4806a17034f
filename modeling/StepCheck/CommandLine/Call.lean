import StepCheck.CommandLine.Commands
import StepCheck.CommandLine.Help
import StepCheck.CommandLine.Session
import StepCheck.Yaml.Value.Numeral

/-!
# Calls

The parameters of a call are looked at one by one, and the first one with a wrong value ends it. A
parameter may also be set by the environment.

* `Call.problem?` — what is wrong with the parameters of a call;
* `Call.begin` — the parameters of a call, or help, or an error.
-/

namespace StepCheck

namespace Call

/-- A letter in the form by which words of a choice are compared. -/
def foldLetter (c : CodePoint) : CodePoint :=
  if c.isCapital then CodePoint.ofNat (c.val + 0x20)
  else if c.val = 0x17F then 's'
  else if c.val = 0x212A then 'k'
  else c

/-- The word of a choice that is meant, whatever the case of its letters. -/
def chosen? (words : List Text) (t : Text) : Option Text :=
  words.find? fun w => w = t.map foldLetter

/-- The whole number that a word writes. -/
def number? (t : Text) : Option Int := do
  let (negative, rest) := Intake.signed (Yaml.Numeral.normalised t)
  let digits ← Intake.plainDigits? false rest
  guard (digits.length ≤ Yaml.Numeral.mostDigits)
  let n : Int := Text.numeral 10 digits
  return if negative then -n else n

/-- What is wrong with a word as the path of a file. Whether there is a file is not asked yet, but
a folder is none, and a file must not be one that may not be read. -/
def pathProblem? (s : Surroundings) (parameter t : Text) : Option UsageError :=
  if t.isEmpty then none
  else match s.files (Path.of t) with
    | .folder => some (.folder parameter t)
    | .locked => some (.locked parameter t)
    | _ => none

/-- What is wrong with the value of an option. -/
def valueProblem? (s : Surroundings) (o : OptionSpec) (t : Text) : Option UsageError :=
  match o.kind with
  | .flag => none
  | .file => pathProblem? s o.name t
  | .choice words => if (chosen? words t).isSome then none else some (.noChoice o.name t words)
  | .count least =>
    match number? t with
    | none => some (.noCount o.name t)
    | some n => if n < least then some (.belowLeast o.name n least) else none

/-- The value of an option that the environment sets. An empty one counts as none. -/
def setting? (s : Surroundings) (option : Text) : Option Text :=
  let value :=
    if option = Text.ofString "--policy" then s.policyVariable
    else if option = Text.ofString "--log-level" then s.levelVariable
    else none
  value.filter fun t => !t.isEmpty

/-- The value of an option, from the call or from the environment. -/
def value? (s : Surroundings) (g : Given) (option : Text) : Option Text :=
  (g.value? option).or (setting? s option)

/-- What is wrong with the files of a call. -/
def filesProblem? (s : Surroundings) (g : Given) : Option UsageError :=
  if g.arguments.isEmpty then some (.missingArgument Command.files)
  else g.arguments.findSome? (pathProblem? s Command.files)

/-- What is wrong with a parameter. -/
def parameterProblem? (s : Surroundings) (c : CommandSpec) (g : Given) (parameter : Text) :
    Option UsageError :=
  if parameter = Command.files then filesProblem? s g
  else do valueProblem? s (← c.option? parameter) (← value? s g parameter)

/-- **What is wrong with the parameters** of a call: what is found first. -/
def problem? (s : Surroundings) (c : CommandSpec) (g : Given) : Option UsageError :=
  ((c.order g).findSome? (parameterProblem? s c g)).or
    (if c.arguments.isEmpty ∧ !g.arguments.isEmpty then some (.extraArguments g.arguments)
      else none)

/-- A call ends with an error about its words. -/
def refuse {α : Type} (c : CommandSpec) (e : UsageError) : Session α := do
  Session.complain (Help.usageErrorLines c e)
  Session.exit 2

/-- **The parameters of a call.** If help is asked for, it is shown, and the call ends. -/
def begin (s : Surroundings) (c : CommandSpec) (commands : List (Text × CommandSpec))
    (words : List Text) : Session Given := do
  match c.read words with
  | .error e => refuse c e
  | .ok g =>
    if g.has CommandSpec.helpOption.name then
      Session.out (Help.page c commands)
      Session.exit 0
    match problem? s c g with
    | some e => refuse c e
    | none => return g

/-- The policy that a call names. -/
def policyPath (s : Surroundings) (g : Given) : Option Path := (value? s g "--policy").map Path.of

end Call

end StepCheck
