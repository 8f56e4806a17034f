import StepCheck.CommandLine.Call

/-!
# Estimating times

Every file is read and measured, and the time that its validation is expected to take is shown in a
table.

* `Estimation.run` — the command.
-/

namespace StepCheck

namespace Estimation

/-- The columns of the table. -/
def columns : List Column :=
  [⟨"File", .left⟩, ⟨"Size", .right⟩, ⟨"Lines", .right⟩, ⟨"Entities", .right⟩, ⟨"Estimate", .right⟩]

/-- The row of a file. -/
def row (policy : Policy) (path : Path) (content : Text) : List Text :=
  [path.name, Text.ofNat content.length, Text.ofNat content.lineCount,
    Text.ofNat (Declaration.countIn content),
    Report.seconds 2 (policy.estimator.estimate content)]

/-- **Times are estimated.** A path that is given twice counts twice. -/
def run (s : Surroundings) (logger : Logger) (policy : Option Path) (files : List Path) :
    Session Unit := do
  let policy ← Session.policy s logger policy
  let rows ← files.mapM fun path => do
    return (← Session.content s logger false path).map (row policy path)
  let read := rows.filterMap id
  Session.printing (Console.printTable s.terminal ViewFailure.console
    { title := "Validation Time Estimate", columns, rows := read })
  Session.exit (if read.length < files.length then 1 else 0)

end Estimation

end StepCheck
