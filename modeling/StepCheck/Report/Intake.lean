import StepCheck.Report.Basic
import StepCheck.Outcome.Intake

/-!
# Reading reports

A report is read from structured data with all faults of its fields. The numbers of its summary and
its verdict are taken as they are written, even where the outcomes say otherwise.
-/

namespace StepCheck

open Intake

/-- The summary of a datum. -/
def Summary.intake : Intake Summary := recordNamed "Summary" fun es => do
  let count (name : String) : Except Refusal Int := withDefault name 0 integer es
  let (errors, warnings, passed, notApplicable, total) ←
    both (count "errors") (both (count "warnings") (both (count "passed")
      (both (count "not_applicable") (count "total_checks"))))
  return { errors, warnings, passed, notApplicable, total }

/-- **The report of a datum**, or its faults. -/
def Report.intake : Intake Report := recordNamed "ValidationReport" fun es => do
  let (filename, isValid, validationTime, estimatedTime, summary, results) ←
    both (required "filename" text es)
      (both (required "is_valid" flag es)
        (both (required "validation_time" nonNegative es)
          (both (required "estimated_time" nonNegative es)
            (both (required "summary" Summary.intake es)
              (withDefault "results" [] (tuple Outcome.intake) es)))))
  return { filename, isValid, validationTime, estimatedTime, summary, results }

end StepCheck
