import StepCheck.Proofs.Decimal.Order
import StepCheck.Proofs.Policy.Accepted
import StepCheck.Proofs.Report.Reread
import StepCheck.Proofs.Text.Capitals

/-!
# The normal form of policies

Whatever data a policy is read from, the names of entities in it are stripped and in capitals, the
display limits are at least one, and the numbers of the time estimate are as they should be. A
policy of that form is read back as it is from the data that it is written as, so reading a policy
settles its form for good.

* `Policy.isNormal_of_normalNames` — names that are taken in;
* `Policy.IsNormal` — policies in normal form, part by part;
* `Policy.IsNormal.intake_payload` — such a policy is read back;
* `Policy.isNormal_and_intake_payload` — every policy that is read from data is of that form.
-/

namespace StepCheck

open Datum Intake

/-! ### Readers -/

namespace Intake

variable {α : Type} {name : String} {default a : α} {read : Intake α} {es : List (Datum × Datum)}
  {d : Datum}

/-- **What holds of the default and of all that is taken in** holds of what comes from a field. -/
theorem of_withDefault {p : α → Prop} (hdefault : p default) (hread : ∀ {d a}, read d = .ok a → p a)
    (h : withDefault name default read es = .ok a) : p a := by
  rcases withDefault_eq_ok h with rfl | ⟨d, hd⟩
  · exact hdefault
  · exact hread hd

/-- A field that is there is taken in. -/
theorem withDefault_of_lookup (hlookup : lookup? name es = some d) (hread : read d = .ok a) :
    withDefault name default read es = .ok a := by
  rw [withDefault, hlookup]
  dsimp only
  rw [hread]
  rfl

theorem text_text (t : Text) : text (.text t) = .ok t := rfl

/-- A list of texts is taken in as it is. -/
theorem tuple_texts (ts : List Text) : tuple text (texts ts) = .ok ts :=
  items_map (f := Datum.text) (fun _ _ => rfl) 0

/-- A number above the limit is taken in as it is. -/
theorem integerFrom_int {low i : Int} (h : low ≤ i) : integerFrom low (.int i) = .ok i := by
  change (if i < low then _ else Except.ok i) = _
  rw [if_neg (Int.not_lt.mpr h)]

end Intake

/-! ### Names -/

namespace Policy

variable {d : Datum} {n : Text} {ns : List Text}

/-- **Every name that is taken in** is in normal form. -/
theorem isNormal_nameOf (d : Datum) : (nameOf d).IsNormal := Text.isNormal_upper_strip d.shown

/-- **A name that is taken in** is in normal form. -/
theorem isNormal_of_name (h : name d = .ok n) : n.IsNormal := by
  cases h
  exact isNormal_nameOf d

/-- **Names that are taken in** are in normal form, whatever kind of collection they come from. -/
theorem isNormal_of_normalNames (h : normalNames d = .ok ns) : ∀ n ∈ ns, n.IsNormal := by
  -- one case for each kind of data that can be gone through; the others are refused
  cases d with
  | text t =>
    cases h
    exact List.forall_mem_singleton.mpr (Text.isNormal_upper_strip t)
  | list xs =>
    cases h
    exact List.forall_mem_map.mpr fun x _ => isNormal_nameOf x
  | set xs =>
    cases h
    exact List.forall_mem_map.mpr fun x _ => isNormal_nameOf x
  | pair a b =>
    cases h
    exact List.forall_mem_cons.mpr
      ⟨isNormal_nameOf a, List.forall_mem_singleton.mpr (isNormal_nameOf b)⟩
  | record es =>
    cases h
    exact List.forall_mem_map.mpr fun e _ => isNormal_nameOf e.1
  | bytes bs =>
    cases h
    exact List.forall_mem_map.mpr fun b _ => Text.isNormal_ofNat b.toNat
  | _ => cases h

/-- A name in normal form is taken in as it is. -/
theorem nameOf_text (h : n.IsNormal) : nameOf (.text n) = n := by
  rw [nameOf, shown_text, normalName, h.strip, h.upper]

/-- A name in normal form is taken in as it is. -/
theorem name_text (h : n.IsNormal) : name (.text n) = .ok n := by
  rw [name, nameOf_text h]

/-- Lists of names in normal form are taken in as they are. -/
theorem normalNames_texts (h : ∀ n ∈ ns, n.IsNormal) : normalNames (texts ns) = .ok ns := by
  change Except.ok ((ns.map Datum.text).map nameOf) = _
  have hnames : ns.map (nameOf ∘ Datum.text) = ns.map id :=
    List.map_congr_left fun n hn => nameOf_text (h n hn)
  rw [List.map_map, hnames, List.map_id]

end Policy

/-! ### Parts of a policy -/

/-- **Entity rules in normal form.** -/
structure EntityRules.IsNormal (rules : EntityRules) : Prop where
  known : ∀ name ∈ rules.known, name.IsNormal
  previewLimit : 1 ≤ rules.previewLimit

/-- **Spatial rules in normal form.** -/
structure SpatialRules.IsNormal (rules : SpatialRules) : Prop where
  root : rules.root.IsNormal
  container : rules.container.IsNormal

/-- **Rules of practice in normal form.** -/
structure PracticeRules.IsNormal (rules : PracticeRules) : Prop where
  ownerHistory : rules.ownerHistory.IsNormal
  unitAssignment : rules.unitAssignment.IsNormal
  materials : ∀ name ∈ rules.materials, name.IsNormal

section Parts

variable {d : Datum}

/-- The rules of the header are read back. -/
theorem SchemaRules.intake_payload {rules : SchemaRules} (h : 1 ≤ rules.suggestedCount) :
    intake rules.payload = .ok rules := by
  change (both (withDefault "known" _ (tuple text) _)
    (withDefault "suggested_count" _ (integerFrom 1) _) >>= _) = _
  rw [withDefault_of_lookup rfl (tuple_texts rules.known),
    withDefault_of_lookup rfl (integerFrom_int h)]
  rfl

/-- Rules about entity types that are taken in are in normal form. -/
theorem EntityRules.isNormal_of_intake {rules : EntityRules} (h : intake d = .ok rules) :
    rules.IsNormal where
  known := by
    obtain ⟨es, h⟩ := recordNamed_eq_ok h
    obtain ⟨p, hp, h⟩ := Except.bind_eq_ok h
    cases h
    exact of_withDefault nofun Policy.isNormal_of_normalNames (both_eq_ok hp).1
  previewLimit := one_le_of_intake h

/-- Rules about entity types in normal form are read back. -/
theorem EntityRules.IsNormal.intake_payload {rules : EntityRules} (h : rules.IsNormal) :
    intake rules.payload = .ok rules := by
  change (both (withDefault "known" _ Policy.normalNames _)
    (withDefault "unknown_preview_limit" _ (integerFrom 1) _) >>= _) = _
  rw [withDefault_of_lookup rfl (Policy.normalNames_texts h.known),
    withDefault_of_lookup rfl (integerFrom_int h.previewLimit)]
  rfl

/-- The names of the root and of its container are taken in in normal form. -/
theorem SpatialRules.isNormal_of_intake {rules : SpatialRules} (h : intake d = .ok rules) :
    rules.IsNormal := by
  obtain ⟨es, h⟩ := recordNamed_eq_ok h
  obtain ⟨p, hp, h⟩ := Except.bind_eq_ok h
  cases h
  obtain ⟨hroot, hcontainer⟩ := both_eq_ok hp
  exact ⟨of_withDefault (by decide) Policy.isNormal_of_name hroot,
    of_withDefault (by decide) Policy.isNormal_of_name hcontainer⟩

/-- Names of a root and of its container in normal form are read back. -/
theorem SpatialRules.IsNormal.intake_payload {rules : SpatialRules} (h : rules.IsNormal) :
    intake rules.payload = .ok rules := by
  change (both (withDefault "root" _ Policy.name _)
    (withDefault "container" _ Policy.name _) >>= _) = _
  rw [withDefault_of_lookup rfl (Policy.name_text h.root),
    withDefault_of_lookup rfl (Policy.name_text h.container)]
  rfl

/-- Of the names about property sets only that of the entity type is put in normal form. -/
theorem PropertySetRules.isNormal_of_intake {rules : PropertySetRules} (h : intake d = .ok rules) :
    rules.container.IsNormal := by
  obtain ⟨es, h⟩ := recordNamed_eq_ok h
  obtain ⟨p, hp, h⟩ := Except.bind_eq_ok h
  cases h
  exact of_withDefault (by decide) Policy.isNormal_of_name (both_eq_ok hp).1

/-- Rules about property sets are read back if the name of the entity type is in normal form; the
other names are taken in as they are. -/
theorem PropertySetRules.intake_payload {rules : PropertySetRules} (h : rules.container.IsNormal) :
    intake rules.payload = .ok rules := by
  change (both (withDefault "container" _ Policy.name _) (both (withDefault "prefix" _ text _)
    (withDefault "standard" _ (tuple text) _)) >>= _) = _
  rw [withDefault_of_lookup rfl (Policy.name_text h),
    withDefault_of_lookup rfl (text_text rules.start),
    withDefault_of_lookup rfl (tuple_texts rules.standard)]
  rfl

/-- The names of geometry are taken in in normal form. -/
theorem GeometryRules.isNormal_of_intake {rules : GeometryRules} (h : intake d = .ok rules) :
    ∀ name ∈ rules.entities, name.IsNormal := by
  obtain ⟨es, h⟩ := recordNamed_eq_ok h
  obtain ⟨entities, hentities, h⟩ := Except.bind_eq_ok h
  cases h
  exact of_withDefault nofun Policy.isNormal_of_normalNames hentities

/-- Names of geometry in normal form are read back. -/
theorem GeometryRules.intake_payload {rules : GeometryRules}
    (h : ∀ name ∈ rules.entities, name.IsNormal) : intake rules.payload = .ok rules := by
  change (withDefault "entities" _ Policy.normalNames _ >>= _) = _
  rw [withDefault_of_lookup rfl (Policy.normalNames_texts h)]
  rfl

/-- The names of recommended practice are taken in in normal form. -/
theorem PracticeRules.isNormal_of_intake {rules : PracticeRules} (h : intake d = .ok rules) :
    rules.IsNormal := by
  obtain ⟨es, h⟩ := recordNamed_eq_ok h
  obtain ⟨p, hp, h⟩ := Except.bind_eq_ok h
  cases h
  obtain ⟨hownerHistory, hp⟩ := both_eq_ok hp
  obtain ⟨hunitAssignment, hmaterials⟩ := both_eq_ok hp
  exact {
    ownerHistory := of_withDefault (by decide) Policy.isNormal_of_name hownerHistory
    unitAssignment := of_withDefault (by decide) Policy.isNormal_of_name hunitAssignment
    materials := of_withDefault (by decide) Policy.isNormal_of_normalNames hmaterials }

/-- Names of recommended practice in normal form are read back. -/
theorem PracticeRules.IsNormal.intake_payload {rules : PracticeRules} (h : rules.IsNormal) :
    intake rules.payload = .ok rules := by
  change (both (withDefault "owner_history" _ Policy.name _)
    (both (withDefault "unit_assignment" _ Policy.name _)
      (withDefault "materials" _ Policy.normalNames _)) >>= _) = _
  rw [withDefault_of_lookup rfl (Policy.name_text h.ownerHistory),
    withDefault_of_lookup rfl (Policy.name_text h.unitAssignment),
    withDefault_of_lookup rfl (Policy.normalNames_texts h.materials)]
  rfl

/-- Sound coefficients are read back. -/
theorem Coefficients.Sound.intake_payload {c : Coefficients Float} (h : c.Sound) :
    intake c.payload = .ok c := by
  change (both (withDefault "seconds_per_kilochar" _ nonNegative _)
    (both (withDefault "seconds_per_entity" _ nonNegative _)
      (both (withDefault "seconds_per_hundred_lines" _ nonNegative _)
        (both (withDefault "min_seconds" _ nonNegative _)
          (withDefault "max_seconds" _ nonNegative _)))) >>= _) = _
  rw [withDefault_of_lookup rfl (nonNegative_real h.perKilochar),
    withDefault_of_lookup rfl (nonNegative_real h.perEntity),
    withDefault_of_lookup rfl (nonNegative_real h.perHundredLines),
    withDefault_of_lookup rfl (nonNegative_real h.least),
    withDefault_of_lookup rfl (nonNegative_real h.most)]
  -- all that is left is the check of the bounds
  change (if c.most < c.least then _ else Except.ok c) = _
  rw [if_neg h.bounds]

end Parts

/-! ### Policies -/

namespace Policy

variable {d : Datum} {P : Policy}

/-- **A policy in normal form.** -/
structure IsNormal (P : Policy) : Prop where
  /-- At least one identifier is suggested. -/
  schemas : 1 ≤ P.schemas.suggestedCount
  entities : P.entities.IsNormal
  spatial : P.spatial.IsNormal
  propertySets : P.propertySets.container.IsNormal
  geometry : ∀ name ∈ P.geometry.entities, name.IsNormal
  practice : P.practice.IsNormal
  /-- No number of the time estimate is negative. -/
  estimator : P.estimator.Sound
  bounds : P.estimator.least ≤ P.estimator.most

/-- **A policy that is read from data** is in normal form. -/
theorem isNormal_of_intake (h : intake d = .ok P) : P.IsNormal := by
  have haccepted : P.Accepted := ⟨d, h⟩
  have hsound := haccepted.sound
  obtain ⟨es, -, hentities, hspatial, hsets, hgeometry, hpractice, -⟩ := haccepted.exists_parts
  -- each part is taken in from its field or has its default, and the defaults are in normal form
  exact {
    schemas := haccepted.one_le_suggestedCount
    entities := of_withDefault (p := EntityRules.IsNormal) ⟨by decide, by decide⟩
      EntityRules.isNormal_of_intake hentities
    spatial := of_withDefault (p := SpatialRules.IsNormal) ⟨by decide, by decide⟩
      SpatialRules.isNormal_of_intake hspatial
    propertySets := of_withDefault (p := fun rules => rules.container.IsNormal) (by decide)
      PropertySetRules.isNormal_of_intake hsets
    geometry := of_withDefault (p := fun rules => ∀ name ∈ rules.entities, name.IsNormal) nofun
      GeometryRules.isNormal_of_intake hgeometry
    practice := of_withDefault (p := PracticeRules.IsNormal)
      ⟨by decide, by decide, by decide⟩ PracticeRules.isNormal_of_intake hpractice
    estimator := hsound
    bounds := Binary64.le_of_not_lt hsound.least hsound.most hsound.bounds }

/-- **A policy in normal form is read back** from the data that it is written as. -/
theorem IsNormal.intake_payload (h : P.IsNormal) : intake P.payload = .ok P := by
  -- the fields in the order in which they are taken in
  change (both (withDefault "schemas" _ SchemaRules.intake _)
    (both (withDefault "entities" _ EntityRules.intake _)
      (both (withDefault "spatial_structure" _ SpatialRules.intake _)
        (both (withDefault "property_sets" _ PropertySetRules.intake _)
          (both (withDefault "geometry" _ GeometryRules.intake _)
            (both (withDefault "industry_practices" _ PracticeRules.intake _)
              (withDefault "estimator" _ Coefficients.intake _)))))) >>= _) = _
  rw [withDefault_of_lookup rfl (SchemaRules.intake_payload h.schemas),
    withDefault_of_lookup rfl h.entities.intake_payload,
    withDefault_of_lookup rfl h.spatial.intake_payload,
    withDefault_of_lookup rfl (PropertySetRules.intake_payload h.propertySets),
    withDefault_of_lookup rfl (GeometryRules.intake_payload h.geometry),
    withDefault_of_lookup rfl h.practice.intake_payload,
    withDefault_of_lookup rfl h.estimator.intake_payload]
  rfl

/-- **The normal form of policies.** Whatever a policy is read from, its names are in normal form
and its numbers within their bounds, and it is read back from the data that it is written as. That
holds of infinite coefficients too. -/
theorem isNormal_and_intake_payload (h : intake d = .ok P) :
    P.IsNormal ∧ intake P.payload = .ok P := by
  have hnormal := isNormal_of_intake h
  exact ⟨hnormal, hnormal.intake_payload⟩

/-- Names in small letters, with white space around them, as numbers and as the keys of a record. -/
def unevenDatum : Datum :=
  fields [("schemas", fields [("suggested_count", text " 2 ")]),
    ("entities", fields [("known", list [text "\u2003straße\t", int 7, null])]),
    ("spatial_structure", fields [("root", text " ﬁx ")]),
    ("geometry", fields [("entities", fields [("ifcpolyline", bool true)])]),
    ("industry_practices", fields [("materials", text "ifcmaterial ")]),
    ("estimator", fields [("min_seconds", bool true)])]

/-- The policy that is read from them. -/
def evenPolicy : Policy where
  schemas := { suggestedCount := 2 }
  entities := { known := ["STRASSE", "7", "NONE"] }
  spatial := { root := "FIX" }
  geometry := { entities := ["IFCPOLYLINE"] }
  practice := { materials := ["IFCMATERIAL"] }
  estimator := { Coefficients.standard with least := 1 }

theorem isNormal_and_intake_payload_unevenDatum :
    intake unevenDatum = .ok evenPolicy ∧ evenPolicy.IsNormal ∧
      intake evenPolicy.payload = .ok evenPolicy := by
  have hintake : intake unevenDatum = .ok evenPolicy := rfl
  exact ⟨hintake, isNormal_and_intake_payload hintake⟩

end Policy

end StepCheck
