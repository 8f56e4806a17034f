import StepCheck.Text.Quoted
import StepCheck.Text.Blank
import StepCheck.Text.Upper

/-!
# Outcome codes

The closed list of codes by which other programs recognise the outcomes of a check. A code has a
number that never changes (`Code.wire`), a name in capitals (`Code.name`), and a slug, which is the
name in small letters (`Code.slug`). `Code.ofSlug` finds a code by its name, whatever the case of
the letters and the white space around it.
-/

namespace StepCheck

/-- **An outcome code.** -/
inductive Code
  | passed
  | notApplicable
  | syntaxError
  | schemaError
  | typeError
  | valueError
  | geometryError
  | cardinalityError
  | duplicateError
  | placementError
  | unitsError
  | quantityError
  | enumeratedValueError
  | relationshipError
  | namingError
  | referenceError
  | resourceError
  | deprecationError
  | shapeRepresentationError
  | instanceStructureError
  | warning
deriving DecidableEq

namespace Code

/-- All codes in the order of their declaration. -/
def all : List Code :=
  [passed, notApplicable, syntaxError, schemaError, typeError, valueError, geometryError,
    cardinalityError, duplicateError, placementError, unitsError, quantityError,
    enumeratedValueError, relationshipError, namingError, referenceError, resourceError,
    deprecationError, shapeRepresentationError, instanceStructureError, warning]

/-- The number of a code. -/
def wire : Code → Text
  | passed => "P00010"
  | notApplicable => "N00010"
  | syntaxError => "E00001"
  | schemaError => "E00002"
  | typeError => "E00010"
  | valueError => "E00020"
  | geometryError => "E00030"
  | cardinalityError => "E00040"
  | duplicateError => "E00050"
  | placementError => "E00060"
  | unitsError => "E00070"
  | quantityError => "E00080"
  | enumeratedValueError => "E00090"
  | relationshipError => "E00100"
  | namingError => "E00110"
  | referenceError => "E00120"
  | resourceError => "E00130"
  | deprecationError => "E00140"
  | shapeRepresentationError => "E00150"
  | instanceStructureError => "E00160"
  | warning => "W00030"

/-- The slug of a code. -/
def slug : Code → Text
  | passed => "passed"
  | notApplicable => "not_applicable"
  | syntaxError => "syntax_error"
  | schemaError => "schema_error"
  | typeError => "type_error"
  | valueError => "value_error"
  | geometryError => "geometry_error"
  | cardinalityError => "cardinality_error"
  | duplicateError => "duplicate_error"
  | placementError => "placement_error"
  | unitsError => "units_error"
  | quantityError => "quantity_error"
  | enumeratedValueError => "enumerated_value_error"
  | relationshipError => "relationship_error"
  | namingError => "naming_error"
  | referenceError => "reference_error"
  | resourceError => "resource_error"
  | deprecationError => "deprecation_error"
  | shapeRepresentationError => "shape_representation_error"
  | instanceStructureError => "instance_structure_error"
  | warning => "warning"

/-- The name of a code in capitals. -/
def name (c : Code) : Text := c.slug.asciiCapitals

/-- **The code of a slug**, whatever the case of its letters and the white space around it. -/
def ofSlug? (slug : Text) : Option Code := all.find? fun c => c.name = slug.strip.upper

/-- The text that refuses a slug. -/
def unknownSlug (slug : Text) : Text := "Unknown outcome code slug: " ++ slug.quoted

end Code

end StepCheck
