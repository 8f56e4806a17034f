import StepCheck.Outcome.Severity
import StepCheck.Outcome.Code

/-!
# Outcomes

An outcome is one thing that a check has to say about a file: how bad it is, which code it has, what
was observed, and, if a rule speaks to it, which rule and in which line.
-/

namespace StepCheck

/-- **What rule** an outcome is about, and in which line. -/
structure Feature where
  rule : Text
  description : Text
  line : Option Int
deriving DecidableEq

/-- **An outcome** of a check. -/
structure Outcome where
  severity : Severity
  code : Code
  observed : Text
  expected : Option Text
  feature : Option Feature
  /-- The name of the instance that the outcome is about. -/
  instanceId : Option Text
deriving DecidableEq

namespace Outcome

/-- The name of the rule that the outcome is about. -/
def rule (o : Outcome) : Option Text := o.feature.map Feature.rule

/-- The line that the outcome is about. -/
def line (o : Outcome) : Option Int := o.feature.bind Feature.line

end Outcome

end StepCheck
