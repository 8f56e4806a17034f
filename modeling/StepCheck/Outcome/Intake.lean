import StepCheck.Outcome.Basic
import StepCheck.Datum.Intake

/-!
# Reading outcomes

An outcome is read from structured data with all faults of its fields.
-/

namespace StepCheck

open Intake

/-- The feature of a datum. -/
def Feature.intake : Intake Feature := recordNamed "Feature" fun es => do
  let (rule, description, line) ←
    both (required "rule" text es)
      (both (required "description" text es) (withDefault "line" none (nullable integer) es))
  return { rule, description, line }

/-- **The outcome of a datum**, or its faults. -/
def Outcome.intake : Intake Outcome := recordNamed "Outcome" fun es => do
  let (severity, code, observed, expected, feature, instanceId) ←
    both (required "severity" (word Severity.all Severity.wire) es)
      (both (required "outcome_code" (word Code.all Code.wire) es)
        (both (required "observed" text es)
          (both (withDefault "expected" none (nullable text) es)
            (both (withDefault "feature" none (nullable Feature.intake) es)
              (withDefault "instance_id" none (nullable text) es)))))
  return { severity, code, observed, expected, feature, instanceId }

end StepCheck
