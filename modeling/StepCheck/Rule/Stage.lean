import StepCheck.Text.Basic

/-!
# Stages of a run

A run goes through the same stages whatever the file: it starts, runs five groups of checks, and
ends with two closing stages. Each stage is announced with the percentage of work that is done.
-/

namespace StepCheck

/-- **A group of checks**, in the order in which they run. -/
inductive CheckGroup
  /-- The envelope of the file: markers, parentheses, encoding. -/
  | envelope
  /-- The records of the header section. -/
  | header
  /-- The entity types of the data section. -/
  | entities
  /-- The rules of the trade: spatial structure, property sets, geometry. -/
  | business
  /-- Recommended practice. -/
  | practice
deriving DecidableEq

/-- **A stage** of a run. -/
inductive Stage
  | starting
  | checking (group : CheckGroup)
  | finalizing
  | completed
deriving DecidableEq

namespace CheckGroup

/-- All groups in the order in which they run. -/
def all : List CheckGroup := [envelope, header, entities, business, practice]

/-- Every group runs. -/
theorem mem_all (group : CheckGroup) : group ∈ all := by cases group <;> decide

/-- The word for the stage in which a group runs. -/
def wire : CheckGroup → Text
  | envelope => "syntax_validation"
  | header => "header_validation"
  | entities => "schema_validation"
  | business => "normative_rules"
  | practice => "industry_practices"

/-- The name under which a group is logged. -/
def title : CheckGroup → Text
  | envelope => "SyntaxChecker"
  | header => "HeaderChecker"
  | entities => "SchemaChecker"
  | business => "NormativeRuleChecker"
  | practice => "IndustryPracticeChecker"

/-- The percentage announced before a group runs. -/
def entry : CheckGroup → Int
  | envelope => 10
  | header => 30
  | entities => 45
  | business => 60
  | practice => 75

/-- The percentage announced after a group has run. -/
def exit : CheckGroup → Int
  | envelope => 25
  | header => 40
  | entities => 55
  | business => 70
  | practice => 85

end CheckGroup

namespace Stage

/-- All stages in the order of a run. -/
def all : List Stage := starting :: CheckGroup.all.map checking ++ [finalizing, completed]

/-- The word for a stage. -/
def wire : Stage → Text
  | starting => "starting"
  | checking group => group.wire
  | finalizing => "finalizing"
  | completed => "completed"

end Stage

end StepCheck
