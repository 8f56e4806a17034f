import StepCheck.Policy.Basic
import StepCheck.Datum.Intake

/-!
# Reading policies

A policy is read from structured data. Parts and fields that are absent have their defaults, and
what is not a part or a field is passed over. Names of entities are stripped of white space and put
in capitals; whatever stands for such a name is taken as its text.

* `Policy.intake` — the policy of a datum, or its faults;
* `Policy.normalName`, `Policy.normalNames` — names in their normal form.
-/

namespace StepCheck

open Intake

namespace Policy

/-- **The normal form of a name**: in capitals, without white space at the ends. -/
def normalName (name : Text) : Text := name.strip.upper

/-- The normal form of the name that a datum stands for. -/
def nameOf (d : Datum) : Text := normalName d.shown

/-- A name, for which any datum can stand. -/
def name : Intake Text := fun d => .ok (nameOf d)

/-- **A list of names**, for the members of which any data can stand. A text is a list of one name,
a record the list of its keys, and bytes the list of their numbers. Other scalars are refused at
once. -/
def normalNames : Intake (List Text)
  | .text t => .ok [normalName t]
  | .list xs => .ok (xs.map nameOf)
  | .set xs => .ok (xs.map nameOf)
  | .pair a b => .ok [nameOf a, nameOf b]
  | .record es => .ok (es.map fun (k, _) => nameOf k)
  | .bytes bs => .ok (bs.map fun b => Text.ofNat b.toNat)
  | d => .error (.notIterable d.kind)

end Policy

/-- The schema rules of a datum. -/
def SchemaRules.intake : Intake SchemaRules := recordNamed "SchemaRules" fun es => do
  let standard : SchemaRules := {}
  let (known, suggestedCount) ←
    both (withDefault "known" standard.known (tuple text) es)
      (withDefault "suggested_count" standard.suggestedCount (integerFrom 1) es)
  return { known, suggestedCount }

/-- The entity rules of a datum. -/
def EntityRules.intake : Intake EntityRules := recordNamed "EntityRules" fun es => do
  let standard : EntityRules := {}
  let (known, previewLimit) ←
    both (withDefault "known" standard.known Policy.normalNames es)
      (withDefault "unknown_preview_limit" standard.previewLimit (integerFrom 1) es)
  return { known, previewLimit }

/-- The spatial rules of a datum. -/
def SpatialRules.intake : Intake SpatialRules := recordNamed "SpatialStructureRules" fun es => do
  let standard : SpatialRules := {}
  let (root, container) ←
    both (withDefault "root" standard.root Policy.name es)
      (withDefault "container" standard.container Policy.name es)
  return { root, container }

/-- The property-set rules of a datum. -/
def PropertySetRules.intake : Intake PropertySetRules := recordNamed "PropertySetRules" fun es => do
  let usual : PropertySetRules := {}
  let (container, start, standard) ←
    both (withDefault "container" usual.container Policy.name es)
      (both (withDefault "prefix" usual.start text es)
        (withDefault "standard" usual.standard (tuple text) es))
  return { container, start, standard }

/-- The geometry rules of a datum. -/
def GeometryRules.intake : Intake GeometryRules := recordNamed "GeometryRules" fun es => do
  let standard : GeometryRules := {}
  let entities ← withDefault "entities" standard.entities Policy.normalNames es
  return { entities }

/-- The rules of practice of a datum. -/
def PracticeRules.intake : Intake PracticeRules := recordNamed "IndustryPracticeRules" fun es => do
  let standard : PracticeRules := {}
  let (ownerHistory, unitAssignment, materials) ←
    both (withDefault "owner_history" standard.ownerHistory Policy.name es)
      (both (withDefault "unit_assignment" standard.unitAssignment Policy.name es)
        (withDefault "materials" standard.materials Policy.normalNames es))
  return { ownerHistory, unitAssignment, materials }

/-- The text about bounds of the estimate that exclude each other. -/
def Coefficients.boundsMessage (least most : Float) : Text :=
  "estimator.min_seconds (" ++ Binary64.numeral least ++ ") must not exceed max_seconds ("
    ++ Binary64.numeral most ++ ")"

/-- The numbers of the time estimate of a datum. None is negative, and the least estimate is not
above the greatest. -/
def Coefficients.intake : Intake (Coefficients Float) :=
  recordNamed "EstimatorCoefficients" fun es => do
    let standard := Coefficients.standard
    let (perKilochar, perEntity, perHundredLines, least, most) ←
      both (withDefault "seconds_per_kilochar" standard.perKilochar nonNegative es)
        (both (withDefault "seconds_per_entity" standard.perEntity nonNegative es)
          (both (withDefault "seconds_per_hundred_lines" standard.perHundredLines nonNegative es)
            (both (withDefault "min_seconds" standard.least nonNegative es)
              (withDefault "max_seconds" standard.most nonNegative es))))
    if most < least then fault (.inconsistent (boundsMessage least most))
    else return { perKilochar, perEntity, perHundredLines, least, most }

/-- **The policy of a datum**, or its faults. -/
def Policy.intake : Intake Policy := recordNamed "ValidationPolicy" fun es => do
  let (schemas, entities, spatial, propertySets, geometry, practice, estimator) ←
    both (withDefault "schemas" {} SchemaRules.intake es)
      (both (withDefault "entities" {} EntityRules.intake es)
        (both (withDefault "spatial_structure" {} SpatialRules.intake es)
          (both (withDefault "property_sets" {} PropertySetRules.intake es)
            (both (withDefault "geometry" {} GeometryRules.intake es)
              (both (withDefault "industry_practices" {} PracticeRules.intake es)
                (withDefault "estimator" Coefficients.standard Coefficients.intake es))))))
  return { schemas, entities, spatial, propertySets, geometry, practice, estimator }

end StepCheck
