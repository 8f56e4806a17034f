import StepCheck.Report.Basic
import StepCheck.Text.Search

/-!
# Categories of outcomes

For display, the outcomes of a report are grouped by what they are about. A category is told by the
code of an outcome or by a word in the name of its rule. Categories overlap: an outcome is shown in
every category to which it belongs.
-/

namespace StepCheck

/-- **A category**, in the order of display. -/
inductive Category
  | envelope
  | header
  | entities
  | business
  | practice
  | passed
deriving DecidableEq

namespace Category

/-- All categories in the order of display. -/
def all : List Category := [envelope, header, entities, business, practice, passed]

/-- The word for a category. -/
def name : Category → Text
  | envelope => "syntax"
  | header => "header"
  | entities => "schema"
  | business => "normative"
  | practice => "industry"
  | passed => "passed"

/-- The heading of a category. -/
def heading : Category → Text
  | envelope => "Syntax"
  | header => "Header"
  | entities => "Schema"
  | business => "Normative"
  | practice => "Industry"
  | passed => "Passed"

/-- The codes whose outcomes belong to a category. -/
def codes : Category → List Code
  | envelope => [.syntaxError]
  | header => []
  | entities => [.schemaError, .typeError]
  | business => [.cardinalityError, .relationshipError]
  | practice => [.warning, .unitsError, .namingError]
  | passed => []

/-- The words in rule names that tell a category. -/
def ruleWords : Category → List Text
  | envelope => ["STEP_"]
  | header => ["HEADER", "FILE_", "CHARACTER_ENCODING"]
  | entities => ["SCHEMA", "ENTITY_TYPE"]
  | business => ["SPS001", "PSE001", "GEM001"]
  | practice => ["INDUSTRY_"]
  | passed => []

/-- **Whether an outcome belongs to a category.** -/
def has (c : Category) (o : Outcome) : Bool :=
  (c == passed && o.severity = .passed) || c.codes.contains o.code
    || c.ruleWords.any fun word => word.occursIn (o.rule.getD [])

/-- The outcomes of a list that belong to a category, in the order of the list. -/
def select (c : Category) (os : List Outcome) : List Outcome := os.filter c.has

end Category

/-- **The outcomes of a report by category.** -/
def Report.categorize (r : Report) : List (Category × List Outcome) :=
  Category.all.map fun c => (c, c.select r.results)

end StepCheck
