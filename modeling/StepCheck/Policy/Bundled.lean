import StepCheck.Policy.Basic

/-!
# The bundled policy

The policy that applies where none is given. It knows the entity types and the property sets that
are common in building models.
-/

namespace StepCheck.Policy

/-- **The bundled policy.** -/
def bundled : Policy where
  schemas :=
    { known := ["IFC2X3", "IFC4", "IFC4X3_ADD2", "IFC4X3_ADD1", "IFC4X1", "IFC4X2"]
      suggestedCount := 3 }
  entities :=
    { previewLimit := 5
      known := Text.ofStrings ["IFCPROJECT", "IFCSITE", "IFCBUILDING", "IFCBUILDINGSTOREY",
        "IFCWALL", "IFCWALLSTANDARDCASE", "IFCSLAB", "IFCDOOR", "IFCWINDOW", "IFCCOLUMN", "IFCBEAM",
        "IFCROOF", "IFCSTAIR", "IFCRAILING", "IFCSPACE", "IFCZONE", "IFCSPATIALZONE",
        "IFCELECTRICALBASEPROPERTIES", "IFCPROPERTYSET", "IFCELEMENTQUANTITY", "IFCMATERIAL",
        "IFCMATERIALLIST", "IFCOWNERHISTORY", "IFCORGANIZATION", "IFCPERSON",
        "IFCPERSONANDORGANIZATION", "IFCAPPLICATION", "IFCUNITASSIGNMENT",
        "IFCGEOMETRICREPRESENTATIONCONTEXT", "IFCSHAPEREPRESENTATION", "IFCPRODUCTDEFINITIONSHAPE",
        "IFCCARTESIANPOINT", "IFCAXIS2PLACEMENT3D", "IFCPOLYLINE", "IFCEXTRUDEDAREASOLID"] }
  spatial := { root := "IFCPROJECT", container := "IFCSITE" }
  propertySets :=
    { container := "IFCPROPERTYSET"
      start := "Pset_"
      standard := ["Pset_WallCommon", "Pset_SlabCommon", "Pset_DoorCommon", "Pset_WindowCommon",
        "Pset_SpaceCommon", "Pset_BuildingCommon", "Pset_ColumnCommon", "Pset_BeamCommon"] }
  geometry :=
    { entities := ["IFCSHAPEREPRESENTATION", "IFCPRODUCTDEFINITIONSHAPE", "IFCEXTRUDEDAREASOLID",
        "IFCPOLYLINE", "IFCCARTESIANPOINT"] }
  practice :=
    { ownerHistory := "IFCOWNERHISTORY"
      unitAssignment := "IFCUNITASSIGNMENT"
      materials := ["IFCMATERIAL", "IFCMATERIALLIST", "IFCMATERIALLAYERSET"] }
  estimator :=
    { perKilochar := 0.1, perEntity := 0.01, perHundredLines := 0.05, least := 0.5, most := 30.0 }

end StepCheck.Policy
