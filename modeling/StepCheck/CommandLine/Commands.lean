import StepCheck.CommandLine.Option

/-!
# The commands of the program

The program validates files, estimates how long that would take, and lists its rules.

* `Command` — the commands;
* `Command.spec` — what a command takes;
* `Command.program` — what the program itself takes.
-/

namespace StepCheck

/-- **A command.** -/
inductive Command
  | estimate
  | rules
  | validate
deriving DecidableEq

namespace Command

/-- All commands in alphabetical order. -/
def all : List Command := [estimate, rules, validate]

/-- The name of a command. -/
def name : Command → Text
  | estimate => "estimate"
  | rules => "rules"
  | validate => "validate"

/-- The command of a name. -/
def named? (t : Text) : Option Command := all.find? fun c => c.name = t

/-- The word by which the program is called. -/
def programName : Text := "cli"

/-- The parameter that takes files. -/
def files : Text := "FILES..."

/-- The names of log levels. -/
def levels : List Text := ["debug", "info", "warning", "error"]

/-- **What the program takes.** -/
def program : CommandSpec where
  call := programName
  arguments := "COMMAND [ARGS]..."
  summary := "IFC / STEP physical-file conformance checker."
  options := [⟨"--log-level", .choice levels,
    "Verbosity of the ifcval loggers.  [default: WARNING]"⟩]
  interspersed := false

/-- **What a command takes.** -/
def spec (c : Command) : CommandSpec :=
  let call := programName ++ " " ++ c.name
  match c with
  | estimate =>
    { call
      arguments := files
      summary := "Heuristic validation-time estimate per file (no validation is run)."
      options := [⟨"--policy", .file, "Validation policy YAML providing estimator coefficients."⟩]
      interspersed := true }
  | rules =>
    { call
      arguments := []
      summary := "List every rule identifier in execution order."
      options := []
      interspersed := true }
  | validate =>
    { call
      arguments := files
      summary := "Check IFC files for STEP syntax, header, schema and best-practice conformance."
      options :=
        [⟨"--policy", .file, "Validation policy YAML (allow-lists, estimator coefficients). Defaults to the bundled policy."⟩,
          ⟨"--strict", .flag, "Treat warnings as failures (exit code 2)."⟩,
          ⟨"--export", .file, "Export the report (or a batch document for several files) to this path."⟩,
          ⟨"--format", .choice ["yaml", "json"], "Export format.  [default: yaml]"⟩,
          ⟨"--jobs", .count 1, "Number of files validated concurrently.  [default: 1; x>=1]"⟩,
          ⟨"--show-passed", .flag, "Also list PASSED outcomes."⟩,
          ⟨"--by-category", .flag, "Group findings into one table per category (syntax, header, schema, normative, industry)."⟩,
          ⟨"--snippets", .flag, "Show source lines around each flagged line."⟩,
          ⟨"--no-progress", .flag, "Disable the progress display."⟩]
      interspersed := true }

end Command

end StepCheck
