import StepCheck.Rule.Basic
import StepCheck.Outcome.Basic

/-!
# Findings

A finding is what a check says about one of its rules. It becomes an outcome of the report, in which
the rule is referred to by its name and by its description among the rules of the group of checks.
-/

namespace StepCheck

/-- **A finding** about a rule. -/
structure Finding where
  severity : Severity
  code : Code
  rule : Rule
  observed : Text
  line : Option Nat := none
  expected : Option Text := none
  /-- The name of the instance that the finding is about. -/
  instanceId : Option Text := none
  /-- What the rule says, where that is not the description of the rule. -/
  remark : Option Text := none

namespace Finding

/-- The file keeps the rule. -/
def passed (rule : Rule) (observed : Text) : Finding :=
  { severity := .passed, code := .passed, rule, observed }

/-- The file does not keep the rule, which is no more than a recommendation. -/
def warning (code : Code) (rule : Rule) (observed : Text) : Finding :=
  { severity := .warning, code, rule, observed }

/-- The file breaks the rule. -/
def error (code : Code) (rule : Rule) (observed : Text) : Finding :=
  { severity := .error, code, rule, observed }

/-- **The outcome** by which a group of checks reports the finding. -/
def outcome (group : CheckGroup) (f : Finding) : Outcome where
  severity := f.severity
  code := f.code
  observed := f.observed
  expected := f.expected
  feature := some
    { rule := f.rule.name
      description := f.remark.getD (f.rule.describedBy group)
      line := f.line.map Int.ofNat }
  instanceId := f.instanceId

@[simp] theorem outcome_severity (group : CheckGroup) (f : Finding) :
    (f.outcome group).severity = f.severity := rfl

@[simp] theorem outcome_code (group : CheckGroup) (f : Finding) :
    (f.outcome group).code = f.code := rfl

@[simp] theorem outcome_rule (group : CheckGroup) (f : Finding) :
    (f.outcome group).rule = some f.rule.name := rfl

end Finding

end StepCheck
