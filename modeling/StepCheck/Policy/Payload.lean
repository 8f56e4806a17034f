import StepCheck.Policy.Basic
import StepCheck.Datum.Basic

/-!
# Policies as data

A policy written as structured data, part by part. Reading it back gives the policy again.
-/

namespace StepCheck

open Datum

/-- A list of texts as a datum. -/
def Datum.texts (ts : List Text) : Datum := .list (ts.map .text)

/-- The schema rules as a datum. -/
def SchemaRules.payload (r : SchemaRules) : Datum :=
  fields [("known", texts r.known), ("suggested_count", int r.suggestedCount)]

/-- The entity rules as a datum. -/
def EntityRules.payload (r : EntityRules) : Datum :=
  fields [("known", texts r.known), ("unknown_preview_limit", int r.previewLimit)]

/-- The spatial rules as a datum. -/
def SpatialRules.payload (r : SpatialRules) : Datum :=
  fields [("root", text r.root), ("container", text r.container)]

/-- The property-set rules as a datum. -/
def PropertySetRules.payload (r : PropertySetRules) : Datum :=
  fields [("container", text r.container), ("prefix", text r.start), ("standard", texts r.standard)]

/-- The geometry rules as a datum. -/
def GeometryRules.payload (r : GeometryRules) : Datum := fields [("entities", texts r.entities)]

/-- The rules of practice as a datum. -/
def PracticeRules.payload (r : PracticeRules) : Datum :=
  fields [("owner_history", text r.ownerHistory), ("unit_assignment", text r.unitAssignment),
    ("materials", texts r.materials)]

/-- The numbers of the time estimate as a datum. -/
def Coefficients.payload (c : Coefficients Float) : Datum :=
  fields [("seconds_per_kilochar", real c.perKilochar), ("seconds_per_entity", real c.perEntity),
    ("seconds_per_hundred_lines", real c.perHundredLines), ("min_seconds", real c.least),
    ("max_seconds", real c.most)]

/-- **The policy as a datum.** -/
def Policy.payload (p : Policy) : Datum :=
  fields [("schemas", p.schemas.payload), ("entities", p.entities.payload),
    ("spatial_structure", p.spatial.payload), ("property_sets", p.propertySets.payload),
    ("geometry", p.geometry.payload), ("industry_practices", p.practice.payload),
    ("estimator", p.estimator.payload)]

end StepCheck
