import StepCheck.Outcome.Basic
import StepCheck.Datum.Intake

/-!
# Reports

A report tells all outcomes of one run over one file, in the order in which the checks ran, with
their numbers by severity. The file is valid if and only if no outcome is an error.

* `Summary.of` — the numbers;
* `Report.aggregate` — the report of a list of outcomes, which is refused if a time is negative.
-/

namespace StepCheck

/-- **The number of outcomes** of each severity. -/
structure Summary where
  errors : Int := 0
  warnings : Int := 0
  passed : Int := 0
  notApplicable : Int := 0
  total : Int := 0
deriving DecidableEq

/-- The number of outcomes of a severity. -/
def Outcome.countOf (s : Severity) (os : List Outcome) : Nat := os.countP fun o => o.severity = s

/-- **The summary** of a list of outcomes. -/
def Summary.of (os : List Outcome) : Summary where
  errors := Outcome.countOf .error os
  warnings := Outcome.countOf .warning os
  passed := Outcome.countOf .passed os
  notApplicable := Outcome.countOf .notApplicable os
  total := os.length

/-- **A report.** -/
structure Report where
  filename : Text
  isValid : Bool
  /-- How many seconds the run took. -/
  validationTime : Float
  /-- How many seconds it had been expected to take. -/
  estimatedTime : Float
  summary : Summary
  results : List Outcome

namespace Report

/-- The results of a severity. -/
def bySeverity (r : Report) (s : Severity) : List Outcome :=
  r.results.filter fun o => o.severity = s

/-- The report of a list of outcomes, whose name and times are still data. -/
def assemble (filename validationTime estimatedTime : Datum) (results : List Outcome) :
    Except Refusal Report := do
  let summary := Summary.of results
  let (filename, validationTime, estimatedTime) ←
    Intake.both (Intake.under (.field "filename") (Intake.text filename))
      (Intake.both (Intake.under (.field "validation_time") (Intake.nonNegative validationTime))
        (Intake.under (.field "estimated_time") (Intake.nonNegative estimatedTime)))
  return {
    filename, isValid := summary.errors = 0, validationTime, estimatedTime, summary, results }

/-- **The report of a list of outcomes.** -/
def aggregate (filename : Text) (results : List Outcome) (validationTime estimatedTime : Float) :
    Except Refusal Report :=
  assemble (.text filename) (.real validationTime) (.real estimatedTime) results

end Report

end StepCheck
