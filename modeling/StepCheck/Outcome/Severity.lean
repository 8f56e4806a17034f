import StepCheck.Text.Basic

/-!
# Severities

How bad an outcome is. Severities are ranked for display: passed below not applicable, then
warnings, then errors.
-/

namespace StepCheck

/-- **The severity** of an outcome. -/
inductive Severity
  | passed
  | warning
  | error
  | notApplicable
deriving DecidableEq

namespace Severity

/-- All severities in the order of their declaration. -/
def all : List Severity := [passed, warning, error, notApplicable]

/-- The word for a severity in reports. -/
def wire : Severity → Text
  | passed => "PASSED"
  | warning => "WARNING"
  | error => "ERROR"
  | notApplicable => "NOT_APPLICABLE"

/-- The rank of a severity; the worst has the highest. -/
def rank : Severity → Nat
  | passed => 0
  | notApplicable => 1
  | warning => 2
  | error => 3

/-- The worse of two severities; of two equally bad ones the first. -/
def worse (s t : Severity) : Severity := if s.rank < t.rank then t else s

end Severity

end StepCheck
