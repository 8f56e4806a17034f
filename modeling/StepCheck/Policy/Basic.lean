import StepCheck.Text.Upper

/-!
# Policies

A policy holds the lists of names and the numbers that the checks go by, so that they can be changed
without changing a check. Names of entities are kept in capitals; schema identifiers and the
beginning of property-set names are compared as written.

* `Policy` — a policy, with the defaults of every part;
* `Policy.bundled` — the policy that applies where none is given, in its own module;
* `Coefficients` — the numbers of the time estimate, over any kind of number.
-/

namespace StepCheck

/-- **Schema identifiers**, compared as written. -/
structure SchemaRules where
  known : List Text := ["IFC2X3", "IFC4", "IFC4X3_ADD2", "IFC4X3_ADD1", "IFC4X1", "IFC4X2"]
  /-- How many of the known identifiers are suggested for an unknown one. -/
  suggestedCount : Int := 3

/-- **Entity types.** -/
structure EntityRules where
  known : List Text := []
  /-- How many unknown types a warning names. -/
  previewLimit : Int := 5

/-- **The spatial structure.** -/
structure SpatialRules where
  root : Text := "IFCPROJECT"
  container : Text := "IFCSITE"

/-- **Property sets.** -/
structure PropertySetRules where
  container : Text := "IFCPROPERTYSET"
  /-- How the names of standard property sets begin. -/
  start : Text := "Pset_"
  standard : List Text := []

/-- **Geometric representations.** -/
structure GeometryRules where
  entities : List Text := []

/-- **Recommended practice.** -/
structure PracticeRules where
  ownerHistory : Text := "IFCOWNERHISTORY"
  unitAssignment : Text := "IFCUNITASSIGNMENT"
  materials : List Text := ["IFCMATERIAL", "IFCMATERIALLIST", "IFCMATERIALLAYERSET"]

/-- **The numbers of the time estimate**, in seconds. -/
structure Coefficients (α : Type) where
  /-- For every thousand characters. -/
  perKilochar : α
  /-- For every instance declaration. -/
  perEntity : α
  /-- For every hundred lines. -/
  perHundredLines : α
  /-- The least estimate. -/
  least : α
  /-- The greatest estimate. -/
  most : α

/-- The numbers of the time estimate that apply where none are given. -/
def Coefficients.standard : Coefficients Float := ⟨0.1, 0.01, 0.05, 0.5, 30.0⟩

/-- **A policy.** -/
structure Policy where
  schemas : SchemaRules := {}
  entities : EntityRules := {}
  spatial : SpatialRules := {}
  propertySets : PropertySetRules := {}
  geometry : GeometryRules := {}
  practice : PracticeRules := {}
  estimator : Coefficients Float := Coefficients.standard

namespace SchemaRules

/-- The identifiers that are suggested for an unknown one. -/
def suggested (r : SchemaRules) : List Text := r.known.take r.suggestedCount.toNat

end SchemaRules

namespace PropertySetRules

/-- The standard names in capitals. -/
def standardNames (r : PropertySetRules) : List Text := r.standard.map Text.upper

/-- Whether a name is standard, whatever the case of its letters. -/
def isStandard (r : PropertySetRules) (name : Text) : Bool := r.standardNames.contains name.upper

end PropertySetRules

end StepCheck
