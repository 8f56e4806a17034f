import StepCheck.CommandLine.Estimation
import StepCheck.CommandLine.Validate

/-!
# The program

* `Program.run` — a call of the program with words, and what it leaves behind.
-/

namespace StepCheck

namespace Program

/-- The commands with their names. -/
def commands : List (Text × CommandSpec) := Command.all.map fun c => (c.name, c.spec)

/-- The table of all rules in the order in which they run. -/
def rulesTable : Table where
  title := "Validation Rules"
  columns := [⟨"Stage", .left⟩, ⟨"Rule", .left⟩, ⟨"Description", .left⟩]
  rows := CheckGroup.all.flatMap fun group =>
    (Rule.ofGroup group).map fun r => [group.wire, r.name, r.description]

/-- The level of the log that is asked for. -/
def level (s : Surroundings) (g : Given) : Datum :=
  .text ((Call.value? s g "--log-level").getD "WARNING")

/-- A word that is no command. It may be meant as an option of the program. -/
def unknownCommand {α : Type} (s : Surroundings) (word : Text) (words : List Text) :
    Session α := do
  let _ ← Call.begin s Command.program commands words
  Call.refuse Command.program (.unknownCommand word (Text.similar word (commands.map Prod.fst)))

/-- A command is run with the words behind it. -/
def runCommand (s : Surroundings) (logger : Logger) (c : Command) (words : List Text) :
    Session Unit := do
  let g ← Call.begin s c.spec [] words
  match c with
  | .validate => Validation.run s logger (Validation.ofGiven s g)
  | .estimate => Estimation.run s logger (Call.policyPath s g) (g.arguments.map Path.of)
  | .rules => Session.printing (Console.printTable s.terminal ViewFailure.console rulesTable)

/-- What a call does. Without words it shows the help and fails. -/
def session (s : Surroundings) (words : List Text) : Session Unit := do
  if words.isEmpty then
    Session.complain (Help.page Command.program commands)
    Session.exit 2
  let g ← Call.begin s Command.program commands words
  match g.arguments with
  | [] => Call.refuse Command.program .missingCommand
  | word :: rest =>
    match Command.named? word with
    | none => unknownCommand s word g.arguments
    | some c =>
      let (logger, _) := ({} : Logger).configure (level s g)
      runCommand s logger c rest

/-- **A call of the program**: how it ends, and what it leaves behind. -/
def run (s : Surroundings) (words : List Text) : Ending × Trail :=
  let (result, trail) := (session s words).run.run {}
  match result with
  | .ok _ => (.exit 0, trail)
  | .error e => (e, trail)

end Program

end StepCheck
