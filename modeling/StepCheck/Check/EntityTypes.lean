import StepCheck.Check.Finding
import StepCheck.Step.Layout
import StepCheck.Policy.Basic

/-!
# The entity types of a file

The data section should declare instances, and of entity types that are known. Unknown types are
named once each, whatever the case of their letters, in the order in which they first appear.
-/

namespace StepCheck.EntityTypes

/-- The instances of types that are neither known nor among those in `seen`, the first one of each
type. -/
def unknownAfter (known seen : List Text) : List Instance → List Instance
  | [] => []
  | i :: is =>
    let name := i.typeName.upper
    if name ∈ known ∨ name ∈ seen then unknownAfter known seen is
    else i :: unknownAfter known (name :: seen) is

/-- The first instance of every type that is not known. -/
def unknown (known : List Text) (is : List Instance) : List Instance := unknownAfter known [] is

/-- The names of the first `limit` types, with the number of those that are left out. -/
def preview (limit : Int) (names : List Text) : Text :=
  let listed := Text.join ", " (names.take limit.toNat)
  if limit < names.length then
    listed ++ " and " ++ Text.ofInt (names.length - limit) ++ " more"
  else listed

/-- The warning about unknown types, the first of which is `first`. -/
def unknownFinding (rules : EntityRules) (first : Instance) (others : List Instance) : Finding :=
  { Finding.warning .typeError .entityTypeValidation
      ("Unknown or uncommon IFC entity types found: "
        ++ preview rules.previewLimit ((first :: others).map Instance.typeName)) with
    line := some first.line
    instanceId := some first.label
    expected := some "entity types from the known IFC entity list" }

/-- There is no data section. -/
def missingFinding (l : Layout) : Finding :=
  { Finding.error .syntaxError .dataSectionRequired "No DATA section found" with
    line := l.dataLine, expected := some "DATA; ... ENDSEC;" }

/-- The data section declares nothing. -/
def emptyFinding (data : Section) : Finding :=
  { Finding.warning .schemaError .entityInstancesPresent
      "No IFC entities found in the DATA section" with
    line := some data.startLine }

/-- The number of instances. -/
def countFinding (is : List Instance) : Finding :=
  Finding.passed .entityInstancesPresent
    (Text.ofNat is.length ++ " IFC entities found and recognized")

/-- **What there is to say** about the entity types. -/
def check (rules : EntityRules) (l : Layout) : List Finding :=
  match l.data with
  | none => [missingFinding l]
  | some data =>
    let is := l.instances
    if is.isEmpty then [emptyFinding data]
    else
      countFinding is ::
        match unknown rules.known is with
        | [] => []
        | first :: others => [unknownFinding rules first others]

end StepCheck.EntityTypes
