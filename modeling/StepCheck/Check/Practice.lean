import StepCheck.Check.Finding
import StepCheck.Step.Layout
import StepCheck.Policy.Basic

/-!
# Recommended practice

A file should say who owns its instances, in which units it measures, and of what materials things
are made. Nothing here is ever an error.
-/

namespace StepCheck.Practice

/-- One of the entities occurs in the file. -/
def presence (l : Layout) (entities : List Text) (code : Code) (rule : Rule)
    (found missing : Text) : Finding :=
  if entities.any fun entity => entity.occursIn l.capitals then Finding.passed rule found
  else { Finding.warning code rule missing with expected := some (Text.join " or " entities) }

/-- **What there is to say** about recommended practice. -/
def check (rules : PracticeRules) (l : Layout) : List Finding :=
  [presence l [rules.ownerHistory] .warning .ownerHistory
      (rules.ownerHistory ++ " found")
      (rules.ownerHistory ++ " is missing; best practice for traceability"),
    presence l [rules.unitAssignment] .unitsError .units
      (rules.unitAssignment ++ " found")
      (rules.unitAssignment ++ " is missing; best practice for unambiguous units"),
    presence l rules.materials .warning .materials
      "Material information found"
      "No material information found; best practice for BIM workflows"]

end StepCheck.Practice
