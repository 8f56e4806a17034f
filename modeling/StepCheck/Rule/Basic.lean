import StepCheck.Rule.Stage

/-!
# Rules

The closed list of rules to which the checks hold a file. Each belongs to one group of checks and
has a name, by which reports refer to it, and a description.
-/

namespace StepCheck

/-- **A rule.** -/
inductive Rule
  | headerStart
  | footerEnd
  | balancedParentheses
  | requiredHeaderSection
  | requiredDataSection
  | characterEncoding
  | headerSectionRequired
  | fileDescriptionRequired
  | fileNameRequired
  | fileSchemaRequired
  | fileSchemaValidation
  | dataSectionRequired
  | entityInstancesPresent
  | entityTypeValidation
  | projectRequired
  | singleProject
  | siteRecommended
  | standardPropertySets
  | geometryPresent
  | ownerHistory
  | units
  | materials
deriving DecidableEq

namespace Rule

/-- The rules of a group of checks. -/
def ofGroup : CheckGroup → List Rule
  | .envelope => [headerStart, footerEnd, balancedParentheses, requiredHeaderSection,
      requiredDataSection, characterEncoding]
  | .header => [headerSectionRequired, fileDescriptionRequired, fileNameRequired,
      fileSchemaRequired, fileSchemaValidation]
  | .entities => [dataSectionRequired, entityInstancesPresent, entityTypeValidation]
  | .business => [projectRequired, singleProject, siteRecommended, standardPropertySets,
      geometryPresent]
  | .practice => [ownerHistory, units, materials]

/-- All rules in the order in which the checks run. -/
def all : List Rule := CheckGroup.all.flatMap ofGroup

/-- The name of a rule. -/
def name : Rule → Text
  | headerStart => "STEP_HEADER_START"
  | footerEnd => "STEP_FOOTER_END"
  | balancedParentheses => "BALANCED_PARENTHESES"
  | requiredHeaderSection => "REQUIRED_SECTION_HEADER"
  | requiredDataSection => "REQUIRED_SECTION_DATA"
  | characterEncoding => "CHARACTER_ENCODING"
  | headerSectionRequired => "HEADER_SECTION_REQUIRED"
  | fileDescriptionRequired => "FILE_DESCRIPTION_REQUIRED"
  | fileNameRequired => "FILE_NAME_REQUIRED"
  | fileSchemaRequired => "FILE_SCHEMA_REQUIRED"
  | fileSchemaValidation => "FILE_SCHEMA_VALIDATION"
  | dataSectionRequired => "DATA_SECTION_REQUIRED"
  | entityInstancesPresent => "ENTITY_INSTANCES_PRESENT"
  | entityTypeValidation => "ENTITY_TYPE_VALIDATION"
  | projectRequired => "SPS001_PROJECT_REQUIRED"
  | singleProject => "SPS001_SINGLE_PROJECT"
  | siteRecommended => "SPS001_SITE_RECOMMENDED"
  | standardPropertySets => "PSE001_STANDARD_PSETS"
  | geometryPresent => "GEM001_GEOMETRY_PRESENT"
  | ownerHistory => "INDUSTRY_OWNER_HISTORY"
  | units => "INDUSTRY_UNITS"
  | materials => "INDUSTRY_MATERIALS"

/-- The description of a rule. -/
def description : Rule → Text
  | headerStart => "STEP physical file must start with ISO-10303-21;"
  | footerEnd => "STEP physical file must end with END-ISO-10303-21;"
  | balancedParentheses => "every opening parenthesis must be closed"
  | requiredHeaderSection => "STEP physical file must contain a HEADER section"
  | requiredDataSection => "STEP physical file must contain a DATA section"
  | characterEncoding => "file content must be UTF-8 compatible"
  | headerSectionRequired => "STEP physical file must contain a HEADER; ... ENDSEC; section"
  | fileDescriptionRequired => "header must contain FILE_DESCRIPTION"
  | fileNameRequired => "header must contain FILE_NAME"
  | fileSchemaRequired => "header must contain a well-formed FILE_SCHEMA"
  | fileSchemaValidation => "IFC schema must be current and supported"
  | dataSectionRequired => "STEP physical file must contain a DATA; ... ENDSEC; section"
  | entityInstancesPresent => "DATA section should declare entity instances"
  | entityTypeValidation => "all entities should be known IFC types"
  | projectRequired => "every IFC file must contain exactly one spatial structure root"
  | singleProject => "only one spatial structure root is allowed per file"
  | siteRecommended => "a site container is recommended for a complete spatial structure"
  | standardPropertySets => "property sets should use standard names"
  | geometryPresent => "geometric representations are recommended for complete BIM models"
  | ownerHistory => "owner history is recommended for traceability"
  | units => "an explicit unit assignment is recommended"
  | materials => "material information is recommended for BIM workflows"

/-- The description of a rule among the rules of a group of checks. A rule of another group has none
there. -/
def describedBy (group : CheckGroup) (r : Rule) : Text :=
  if r ∈ ofGroup group then r.description else []

/-- Every rule belongs to a group of checks. -/
theorem mem_all (r : Rule) : r ∈ all := by cases r <;> decide

end Rule

end StepCheck
