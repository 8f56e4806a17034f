import StepCheck.Policy.Bundled
import StepCheck.Policy.Estimate
import StepCheck.Policy.Intake
import StepCheck.Policy.Payload
import StepCheck.Proofs.Datum.Answers
import StepCheck.Proofs.Decimal.Sign

/-!
# Accepted policies

The type of policies has room for more than what is ever read from data: a negative number of
seconds, say. What holds of every run holds of runs under an accepted policy, one that some datum
was taken in as. This module says what acceptance gives: sound time estimates above all, and names
and numbers of names as the checks rely on them.

* `Policy.Accepted` — accepted policies, the bundled one among them (`Policy.accepted_bundled`);
* `Policy.Accepted.exists_parts` — where the parts of such a policy come from;
* `Coefficients.Sound` — the bounds that the numbers of an accepted policy keep;
* `Coefficients.Sound.zero_le_estimate` — no estimate is negative or no number, whatever the
  content.

The estimate itself may go through infinities and through what is no number, for the factors may be
infinite. It is saved by its two bounds: `larger` and `smaller` answer with a bound unless the
comparison comes out true, and a comparison with what is no number never does.
-/

namespace StepCheck

/-! ### Reading answers back -/

namespace Intake

/-- A value is the same seen from further out. -/
theorem under_eq_ok {α : Type} {step : Step} {answer : Except Refusal α} {a : α}
    (h : under step answer = .ok a) : answer = .ok a := by
  unfold under at h
  split at h
  · cases h
  · exact h

/-- Two answers together are values only if each is. -/
theorem both_eq_ok {α β : Type} {first : Except Refusal α} {second : Except Refusal β} {p : α × β}
    (h : both first second = .ok p) : first = .ok p.1 ∧ second = .ok p.2 := by
  unfold both at h
  split at h <;> cases h
  exact ⟨rfl, rfl⟩

/-- What comes from a field is its default or what the reader makes of some datum. -/
theorem withDefault_eq_ok {α : Type} {name : String} {default a : α} {read : Intake α}
    {es : List (Datum × Datum)} (h : withDefault name default read es = .ok a) :
    a = default ∨ ∃ d, read d = .ok a := by
  unfold withDefault at h
  split at h
  · next d hd =>
    right
    exact ⟨d, under_eq_ok h⟩
  · left
    exact (Except.ok.inj h).symm

/-- What comes from a record comes from its entries. -/
theorem recordNamed_eq_ok {α : Type} {name : Text} {read : List (Datum × Datum) → Except Refusal α}
    {d : Datum} {a : α} (h : recordNamed name read d = .ok a) : ∃ es, read es = .ok a := by
  cases d with
  | record es => exact ⟨es, h⟩
  | _ => cases h

/-- A number that is taken in as not negative is not. -/
theorem zero_le_of_nonNegative {d : Datum} {x : Float} (h : nonNegative d = .ok x) : 0 ≤ x := by
  unfold nonNegative at h
  cases hn : number d with
  | error r => rw [hn] at h; cases h
  | ok y =>
    rw [hn] at h
    change (if 0 ≤ y then Except.ok y else _) = _ at h
    split at h
    · next hy => cases h; exact hy
    · cases h

/-- A number that is not negative is taken in as it is. -/
theorem nonNegative_real {x : Float} (h : 0 ≤ x) : nonNegative (.real x) = .ok x := by
  change (if 0 ≤ x then Except.ok x else _) = _
  rw [if_pos h]

/-- A number that is taken in from some bound on is not below it. -/
theorem le_of_integerFrom {low i : Int} {d : Datum} (h : integerFrom low d = .ok i) : low ≤ i := by
  unfold integerFrom at h
  cases hn : integer d with
  | error r => rw [hn] at h; cases h
  | ok j =>
    rw [hn] at h
    change (if j < low then _ else Except.ok j) = _ at h
    split at h
    · cases h
    · next hj =>
      cases h
      exact Int.not_lt.mp hj

/-- A field for such a number has one that is not below the bound, if its default is not. -/
theorem le_of_field {name : String} {low default i : Int} {es : List (Datum × Datum)}
    (hdefault : low ≤ default) (h : withDefault name default (integerFrom low) es = .ok i) :
    low ≤ i := by
  rcases withDefault_eq_ok h with rfl | ⟨d, hd⟩
  · exact hdefault
  · exact le_of_integerFrom hd

end Intake

/-! ### The numbers of an accepted policy -/

/-- **What the numbers of a time estimate keep** when they are taken in. -/
structure Coefficients.Sound (c : Coefficients Float) : Prop where
  perKilochar : 0 ≤ c.perKilochar
  perEntity : 0 ≤ c.perEntity
  perHundredLines : 0 ≤ c.perHundredLines
  least : 0 ≤ c.least
  most : 0 ≤ c.most
  /-- The least estimate is not above the greatest. -/
  bounds : ¬ c.most < c.least

namespace Coefficients

/-- The standard coefficients are sound. -/
theorem sound_standard : standard.Sound := by
  constructor <;> decide

/-- A coefficient that is not given is the standard one. -/
private theorem zero_le_of_field {name : String} {default x : Float} {es : List (Datum × Datum)}
    (hd : 0 ≤ default) (h : Intake.withDefault name default Intake.nonNegative es = .ok x) :
    0 ≤ x := by
  rcases Intake.withDefault_eq_ok h with rfl | ⟨d, hx⟩
  · exact hd
  · exact Intake.zero_le_of_nonNegative hx

/-- Numbers that are taken in are sound. -/
theorem sound_of_intake {d : Datum} {c : Coefficients Float} (h : intake d = .ok c) : c.Sound := by
  obtain ⟨es, h⟩ := Intake.recordNamed_eq_ok h
  -- the five numbers, with a check of the bounds behind them
  obtain ⟨⟨a, b, e, l, m⟩, hb, h⟩ := Except.bind_eq_ok h
  change (if m < l then _ else Except.ok _) = _ at h
  split at h
  · cases h
  · next hml =>
    cases h
    obtain ⟨ha, hb⟩ := Intake.both_eq_ok hb
    obtain ⟨hb, he⟩ := Intake.both_eq_ok hb
    obtain ⟨he, hl⟩ := Intake.both_eq_ok he
    obtain ⟨hl, hm⟩ := Intake.both_eq_ok hl
    exact {
      perKilochar := zero_le_of_field sound_standard.perKilochar ha
      perEntity := zero_le_of_field sound_standard.perEntity hb
      perHundredLines := zero_le_of_field sound_standard.perHundredLines he
      least := zero_le_of_field sound_standard.least hl
      most := zero_le_of_field sound_standard.most hm
      bounds := hml }

/-- **No estimate is negative**, and every estimate is a number. -/
theorem Sound.zero_le_estimate {c : Coefficients Float} (h : c.Sound) (t : Text) :
    0 ≤ c.estimate t := by
  unfold estimate estimateOver larger
  dsimp only
  -- the estimate is above the least one, or it is the least one
  split
  · next hlt => exact Binary64.zero_le_of_lt h.least hlt
  · exact h.least

end Coefficients

/-! ### The names of an accepted policy -/

namespace Policy

/-- A name that is taken in is in normal form, and so is the default if it is. -/
theorem exists_normalName_of_field {name : String} {default n : Text} {es : List (Datum × Datum)}
    (hdefault : normalName default = default)
    (h : Intake.withDefault name default Policy.name es = .ok n) : ∃ t, n = normalName t := by
  rcases Intake.withDefault_eq_ok h with rfl | ⟨d, hd⟩
  · exact ⟨n, hdefault.symm⟩
  · exact ⟨d.shown, (Except.ok.inj hd).symm⟩

/-- The root of the spatial structure is in normal form. -/
theorem exists_root_of_intake {d : Datum} {rules : SpatialRules}
    (h : SpatialRules.intake d = .ok rules) : ∃ t, rules.root = normalName t := by
  obtain ⟨es, h⟩ := Intake.recordNamed_eq_ok h
  obtain ⟨p, hb, h⟩ := Except.bind_eq_ok h
  cases h
  exact exists_normalName_of_field (by decide) (Intake.both_eq_ok hb).1

end Policy

/-! ### How many names are shown -/

/-- At least one identifier is suggested. -/
theorem SchemaRules.one_le_of_intake {d : Datum} {rules : SchemaRules} (h : intake d = .ok rules) :
    1 ≤ rules.suggestedCount := by
  obtain ⟨es, h⟩ := Intake.recordNamed_eq_ok h
  obtain ⟨p, hb, h⟩ := Except.bind_eq_ok h
  cases h
  exact Intake.le_of_field (by decide) (Intake.both_eq_ok hb).2

/-- At least one unknown type is named. -/
theorem EntityRules.one_le_of_intake {d : Datum} {rules : EntityRules} (h : intake d = .ok rules) :
    1 ≤ rules.previewLimit := by
  obtain ⟨es, h⟩ := Intake.recordNamed_eq_ok h
  obtain ⟨p, hb, h⟩ := Except.bind_eq_ok h
  cases h
  exact Intake.le_of_field (by decide) (Intake.both_eq_ok hb).2

/-! ### Accepted policies -/

namespace Policy

/-- **Accepted policies** are those that some datum is taken in as. -/
def Accepted (P : Policy) : Prop := ∃ d, intake d = .ok P

/-- **The parts of an accepted policy** are taken in each from its field, or have their defaults. -/
theorem Accepted.exists_parts {P : Policy} (h : P.Accepted) : ∃ es,
    Intake.withDefault "schemas" {} SchemaRules.intake es = .ok P.schemas ∧
    Intake.withDefault "entities" {} EntityRules.intake es = .ok P.entities ∧
    Intake.withDefault "spatial_structure" {} SpatialRules.intake es = .ok P.spatial ∧
    Intake.withDefault "property_sets" {} PropertySetRules.intake es = .ok P.propertySets ∧
    Intake.withDefault "geometry" {} GeometryRules.intake es = .ok P.geometry ∧
    Intake.withDefault "industry_practices" {} PracticeRules.intake es = .ok P.practice ∧
    Intake.withDefault "estimator" Coefficients.standard Coefficients.intake es
      = .ok P.estimator := by
  obtain ⟨d, h⟩ := h
  obtain ⟨es, h⟩ := Intake.recordNamed_eq_ok h
  obtain ⟨p, hb, h⟩ := Except.bind_eq_ok h
  cases h
  -- one part after the other is split off
  obtain ⟨hschemas, hb⟩ := Intake.both_eq_ok hb
  obtain ⟨hentities, hb⟩ := Intake.both_eq_ok hb
  obtain ⟨hspatial, hb⟩ := Intake.both_eq_ok hb
  obtain ⟨hsets, hb⟩ := Intake.both_eq_ok hb
  obtain ⟨hgeometry, hb⟩ := Intake.both_eq_ok hb
  obtain ⟨hpractice, hestimator⟩ := Intake.both_eq_ok hb
  exact ⟨es, hschemas, hentities, hspatial, hsets, hgeometry, hpractice, hestimator⟩

/-- The estimates of an accepted policy have sound numbers. -/
theorem Accepted.sound {P : Policy} (h : P.Accepted) : P.estimator.Sound := by
  obtain ⟨es, -, -, -, -, -, -, hestimator⟩ := h.exists_parts
  rcases Intake.withDefault_eq_ok hestimator with he | ⟨d, he⟩
  · rw [he]
    exact Coefficients.sound_standard
  · exact Coefficients.sound_of_intake he

/-- The root of the spatial structure of an accepted policy is in normal form. -/
theorem Accepted.exists_root {P : Policy} (h : P.Accepted) :
    ∃ t, P.spatial.root = normalName t := by
  obtain ⟨es, -, -, hspatial, -⟩ := h.exists_parts
  rcases Intake.withDefault_eq_ok hspatial with he | ⟨d, he⟩
  · refine ⟨"IFCPROJECT", ?_⟩
    rw [he]
    decide
  · exact exists_root_of_intake he

/-- At least one known identifier is suggested under an accepted policy. -/
theorem Accepted.one_le_suggestedCount {P : Policy} (h : P.Accepted) :
    1 ≤ P.schemas.suggestedCount := by
  obtain ⟨es, hschemas, -⟩ := h.exists_parts
  rcases Intake.withDefault_eq_ok hschemas with he | ⟨d, he⟩
  · rw [he]
    decide
  · exact SchemaRules.one_le_of_intake he

/-- At least one unknown type is named under an accepted policy. -/
theorem Accepted.one_le_previewLimit {P : Policy} (h : P.Accepted) :
    1 ≤ P.entities.previewLimit := by
  obtain ⟨es, -, hentities, -⟩ := h.exists_parts
  rcases Intake.withDefault_eq_ok hentities with he | ⟨d, he⟩
  · rw [he]
    decide
  · exact EntityRules.one_le_of_intake he

/-- **The bundled policy is accepted**: it is what its own fields are taken in as. -/
theorem accepted_bundled : bundled.Accepted := ⟨bundled.payload, rfl⟩

end Policy

end StepCheck
