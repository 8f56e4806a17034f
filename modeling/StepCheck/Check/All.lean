import StepCheck.Check.Envelope
import StepCheck.Check.Header
import StepCheck.Check.EntityTypes
import StepCheck.Check.Business
import StepCheck.Check.Practice

/-!
# All checks

The five groups of checks, each a function from the layout of a file to its findings. The groups are
independent of each other.
-/

namespace StepCheck.CheckGroup

/-- **What a group of checks has to say** about a file. -/
def findings (policy : Policy) (l : Layout) : CheckGroup → List Finding
  | envelope => Envelope.check l
  | header => Header.check policy.schemas l
  | entities => EntityTypes.check policy.entities l
  | business => Business.check policy l
  | practice => Practice.check policy.practice l

/-- The outcomes that report the findings of a group. -/
def outcomes (policy : Policy) (l : Layout) (group : CheckGroup) : List Outcome :=
  (group.findings policy l).map (Finding.outcome group)

end StepCheck.CheckGroup
