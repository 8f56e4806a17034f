import StepCheck.Check.Finding
import StepCheck.Check.PropertySets
import StepCheck.Step.Layout

/-!
# The rules of the trade

Rules that every building model has to keep or should keep, checked on the text of the whole file in
capitals: one root of the spatial structure and a container in it, property sets of standard names,
and a geometric representation. Nothing is parsed; every occurrence of a name counts.
-/

namespace StepCheck.Business

/-- There is one root of the spatial structure. -/
def rootFinding (rules : SpatialRules) (l : Layout) : Finding :=
  let root := rules.root
  match root.countIn l.capitals with
  | 0 =>
    { Finding.error .relationshipError .projectRequired
        (root ++ " is missing; it is required as the root of the spatial structure") with
      expected := some ("exactly one " ++ root) }
  | 1 => Finding.passed .projectRequired (root ++ " present (exactly one instance)")
  | n =>
    { Finding.error .cardinalityError .singleProject
        ("Multiple " ++ root ++ " instances found (" ++ Text.ofNat n
          ++ "); only one is allowed") with
      expected := some ("exactly one " ++ root) }

/-- There is a container in the spatial structure. -/
def containerFinding (rules : SpatialRules) (l : Layout) : Finding :=
  if rules.container.occursIn l.capitals then
    Finding.passed .siteRecommended (rules.container ++ " found")
  else
    Finding.warning .relationshipError .siteRecommended
      (rules.container ++ " is missing; recommended for a complete spatial structure")

/-- A property set of the given name begins at the index. -/
def propertySetFinding (rules : PropertySetRules) (l : Layout) (index : Nat) (name : Text) :
    Finding :=
  let line := some (l.content.lineAt index)
  if rules.isStandard name then
    { Finding.passed .standardPropertySets ("Standard property set found: " ++ name) with line }
  else
    { Finding.warning .namingError .standardPropertySets
        ("Non-standard property set found: " ++ name) with
      line, expected := some "a standard property set name" }

/-- There are property sets, of standard names. -/
def propertySetFindings (rules : PropertySetRules) (l : Layout) : List Finding :=
  match PropertySets.all rules l.content with
  | [] =>
    [{ Finding.warning .resourceError .standardPropertySets
          ("No standard property sets (" ++ rules.start ++ "*) found") with
        remark := some "standard property sets are recommended" }]
  | found => found.map fun (index, name) => propertySetFinding rules l index name

/-- There is a geometric representation; the first kind that is found is named. -/
def geometryFinding (rules : GeometryRules) (l : Layout) : Finding :=
  match rules.entities.find? fun entity => entity.occursIn l.capitals with
  | some entity =>
    Finding.passed .geometryPresent ("Geometric representation found: " ++ entity)
  | none => Finding.warning .geometryError .geometryPresent "No geometric representations found"

/-- **What there is to say** about the rules of the trade. -/
def check (policy : Policy) (l : Layout) : List Finding :=
  rootFinding policy.spatial l :: containerFinding policy.spatial l ::
    propertySetFindings policy.propertySets l ++ [geometryFinding policy.geometry l]

end StepCheck.Business
