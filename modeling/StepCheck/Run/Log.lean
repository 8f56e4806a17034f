import StepCheck.Run.Logger
import StepCheck.Run.Pipeline

/-!
# The log of a run

What is logged about a run: how many outcomes each group of checks gave, and what came of it all.

* `LogLine` — a line of the log, with `LogLine.written`;
* `Logger.keeps` — the lines that a logger writes;
* `Pipeline.log` — the lines about a run.
-/

namespace StepCheck

/-- **The importance** of a line of the log. -/
inductive Importance
  | debug
  | info
deriving DecidableEq

namespace Importance

/-- The number of a degree of importance, to be compared with levels. -/
def number : Importance → Int
  | debug => 10
  | info => 20

/-- The word for a degree of importance. -/
def word : Importance → Text
  | debug => "DEBUG"
  | info => "INFO"

end Importance

/-- **A line of the log.** -/
structure LogLine where
  importance : Importance
  /-- The part of the program that it comes from. -/
  part : Text
  message : Text
deriving DecidableEq

namespace LogLine

/-- The line as it is written at a time. -/
def written (time : Text) (l : LogLine) : Text :=
  time ++ " " ++ l.importance.word ++ " [" ++ Logger.name ++ "." ++ l.part ++ "] " ++ l.message

end LogLine

/-- Whether a logger writes a line. -/
def Logger.keeps (logger : Logger) (l : LogLine) : Bool := logger.effective ≤ l.importance.number

namespace Pipeline

/-- The lines about the groups of checks of a run. -/
def checkLog (policy : Policy) (filename content : Text) : List LogLine :=
  let layout := Layout.of content
  CheckGroup.all.map fun group =>
    ⟨.debug, "pipeline", filename ++ ": " ++ group.title ++ " produced "
      ++ Text.ofNat (CheckGroup.outcomes policy layout group).length ++ " outcomes"⟩

/-- The line about the report of a run. -/
def reportLog (filename : Text) (r : Report) : LogLine :=
  let number (name : String) (i : Int) : Text := Text.ofString name ++ Text.ofInt i
  ⟨.info, "pipeline", "validated " ++ filename ++ ": valid="
    ++ Text.ofString (if r.isValid then "True" else "False") ++ number " errors=" r.summary.errors
    ++ number " warnings=" r.summary.warnings ++ number " passed=" r.summary.passed⟩

/-- **The lines about a run** that gave a report. -/
def log (policy : Policy) (filename content : Text) (r : Report) : List LogLine :=
  checkLog policy filename content ++ [reportLog filename r]

end Pipeline

end StepCheck
