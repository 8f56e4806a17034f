import StepCheck.Report.Basic
import StepCheck.Policy.Estimate

/-!
# Reports as data

A report written as structured data, with the accuracy of its estimate, and several reports written
together with what they come to.

* `Report.payload` — a report;
* `Report.batchPayload` — a list of reports.
-/

namespace StepCheck

open Datum

/-- A feature as a datum. -/
def Feature.payload (f : Feature) : Datum :=
  fields [("rule", text f.rule), ("description", text f.description),
    ("line", ofOption int f.line)]

/-- An outcome as a datum. -/
def Outcome.payload (o : Outcome) : Datum :=
  fields [("severity", text o.severity.wire), ("outcome_code", text o.code.wire),
    ("observed", text o.observed), ("expected", ofOption text o.expected),
    ("feature", ofOption Feature.payload o.feature), ("instance_id", ofOption text o.instanceId),
    ("outcome_name", text o.code.slug)]

/-- A summary as a datum. -/
def Summary.payload (s : Summary) : Datum :=
  fields [("errors", int s.errors), ("warnings", int s.warnings), ("passed", int s.passed),
    ("not_applicable", int s.notApplicable), ("total_checks", int s.total)]

namespace Report

/-- **A report as a datum.** -/
def payload (r : Report) : Except AccuracyError Datum := do
  let close ← accuracy r.validationTime r.estimatedTime
  return fields [("filename", text r.filename), ("is_valid", bool r.isValid),
    ("validation_time", real r.validationTime), ("estimated_time", real r.estimatedTime),
    ("summary", r.summary.payload), ("results", list (r.results.map Outcome.payload)),
    ("estimate_accuracy", int close)]

/-- The sum of numbers. -/
def sum (xs : List Float) : Float := xs.foldl (· + ·) 0

/-- The sum of numbers as a datum; that of no numbers is a whole number. -/
def total : List Float → Datum
  | [] => int 0
  | xs => real (sum xs)

/-- The sum of whole numbers. -/
def count (xs : List Int) : Int := xs.foldl (· + ·) 0

/-- **What a list of reports comes to.** -/
def batchSummary (rs : List Report) : Except AccuracyError Datum := do
  let actual := rs.map Report.validationTime
  let estimated := rs.map Report.estimatedTime
  let close ← accuracy (sum actual) (sum estimated)
  return fields [("files", ofNat rs.length), ("valid_files", ofNat (rs.countP Report.isValid)),
    ("errors", int (count (rs.map fun r => r.summary.errors))),
    ("warnings", int (count (rs.map fun r => r.summary.warnings))),
    ("validation_time", total actual), ("estimated_time", total estimated),
    ("estimate_accuracy", int close)]

/-- **A list of reports as a datum.** -/
def batchPayload (rs : List Report) : Except AccuracyError Datum := do
  let summary ← batchSummary rs
  let reports ← rs.mapM payload
  return fields [("summary", summary), ("reports", list reports)]

end Report

end StepCheck
