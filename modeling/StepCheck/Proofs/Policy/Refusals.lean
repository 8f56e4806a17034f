import StepCheck.Policy.Intake

/-!
# How policies are refused

A datum that is no policy is refused for its faults, all of them at once, except in one case: where
a list of names should stand and a number, a flag, a time or nothing does, reading ends at once and
without faults. There are three such places. What a refusal is about can be told from the datum
alone, without reading it.

* `Datum.unlisted?` — the kind of a datum that cannot be gone through;
* `Policy.nameLists` — the places for lists of names;
* `Policy.misplaced?` — the kind of the first datum in such a place that cannot be gone through;
* `Policy.intake_eq_notIterable_iff` — just these data are refused without faults.
-/

namespace StepCheck

/-- The kind of a refusal without faults. -/
def Refusal.unlisted? : Refusal → Option Text
  | faults _ => none
  | notIterable kind => some kind

/-- **The kind of a datum that cannot be gone through.** -/
def Datum.unlisted? : Datum → Option Text
  | null => some "NoneType"
  | bool _ => some "bool"
  | int _ => some "int"
  | real _ => some "float"
  | day _ => some "datetime.date"
  | moment .. => some "datetime.datetime"
  | text _ | bytes _ | list _ | pair .. | set _ | record _ => none

/-- **The places for lists of names** in a policy: a part, and a field of it. -/
def Policy.nameLists : List (Text × Text) :=
  [("entities", "known"), ("geometry", "entities"), ("industry_practices", "materials")]

/-- The datum in a place of a policy. -/
def Policy.placed? (d : Datum) (place : Text × Text) : Option Datum :=
  (d.field? place.1).bind fun part => part.field? place.2

/-- **The kind of the first datum** in the place of a list of names that cannot be gone through. -/
def Policy.misplaced? (d : Datum) : Option Text :=
  nameLists.findSome? fun place => (placed? d place).bind Datum.unlisted?

/-! ### Refusals of readers -/

namespace Intake

variable {α β : Type}

/-- The kind of a datum because of which an answer is a refusal without faults. -/
def unlisted? : Except Refusal α → Option Text
  | .ok _ => none
  | .error r => r.unlisted?

/-- The kind of what is no list is that of the refusal. -/
theorem unlisted?_eq_some_iff {answer : Except Refusal α} {kind : Text} :
    unlisted? answer = some kind ↔ answer = .error (.notIterable kind) := by
  cases answer with
  | ok a => exact iff_of_false nofun nofun
  | error r =>
    cases r with
    | faults fs => exact iff_of_false nofun nofun
    | notIterable k =>
      change some k = some kind ↔ _
      rw [Option.some.injEq, Except.error.injEq, Refusal.notIterable.injEq]

/-- Where something stands makes no difference. -/
theorem unlisted?_under (step : Step) (answer : Except Refusal α) :
    unlisted? (under step answer) = unlisted? answer := by
  rcases answer with (fs | kind) | a <;> rfl

/-- Of two answers the first refusal without faults counts. -/
theorem unlisted?_both (first : Except Refusal α) (second : Except Refusal β) :
    unlisted? (both first second) = (unlisted? first).or (unlisted? second) := by
  rcases first with (fs | kind) | a <;> rcases second with (gs | kind') | b <;> rfl

/-- What is done with a value that has been read adds no such refusals. -/
theorem unlisted?_bind (answer : Except Refusal α) {f : α → Except Refusal β}
    (hf : ∀ a, unlisted? (f a) = none) : unlisted? (answer >>= f) = unlisted? answer := by
  cases answer with
  | ok a => exact hf a
  | error r => rfl

/-- What is not given is not refused. -/
theorem unlisted?_withDefault (name : String) (default : α) (read : Intake α)
    (es : List (Datum × Datum)) :
    unlisted? (withDefault name default read es)
      = (Datum.lookup? name es).bind fun d => unlisted? (read d) := by
  unfold withDefault
  cases Datum.lookup? name es with
  | none => rfl
  | some d => exact unlisted?_under _ _

/-- **A reader tells all refusals by faults.** -/
def TellsFaults (read : Intake α) : Prop := ∀ d, unlisted? (read d) = none

/-- A field that only has faults only has them where it stands. -/
theorem TellsFaults.withDefault {read : Intake α} (h : TellsFaults read) (name : String)
    (default : α) (es : List (Datum × Datum)) :
    unlisted? (withDefault name default read es) = none := by
  rw [unlisted?_withDefault]
  cases Datum.lookup? name es with
  | none => rfl
  | some d => exact h d

/-- **Texts** are refused for faults only. -/
theorem tellsFaults_text : TellsFaults text := by
  intro d
  unfold text
  split
  · rfl
  · split <;> rfl
  · rfl

/-- Whole numbers are refused for faults only, in whichever form they are given. -/
theorem tellsFaults_integer : TellsFaults integer := by
  -- a text may be a numeral, and so may bytes
  have hnumeral : ∀ t, unlisted? (integer.numeral t) = none := by
    intro t
    unfold integer.numeral
    split
    · rfl
    · split <;> rfl
  intro d
  unfold integer
  split
  · rfl
  · rfl
  · split
    · split
      · split <;> rfl
      · rfl
    · rfl
  · exact hnumeral _
  · split
    · exact hnumeral _
    · rfl
  · rfl

/-- Numbers are refused for faults only. -/
theorem tellsFaults_number : TellsFaults number := by
  have hnumeral : ∀ t, unlisted? (number.numeral t) = none := by
    intro t
    unfold number.numeral
    split <;> rfl
  intro d
  unfold number
  split
  · rfl
  · dsimp only
    split <;> rfl
  · rfl
  · exact hnumeral _
  · split
    · exact hnumeral _
    · rfl
  · rfl

/-- Whole numbers with a limit are refused for faults only. -/
theorem tellsFaults_integerFrom (low : Int) : TellsFaults (integerFrom low) := by
  intro d
  unfold integerFrom
  rw [unlisted?_bind, tellsFaults_integer]
  intro i
  split <;> rfl

/-- Numbers that may not be negative are refused for faults only. -/
theorem tellsFaults_nonNegative : TellsFaults nonNegative := by
  intro d
  unfold nonNegative
  rw [unlisted?_bind, tellsFaults_number]
  intro x
  split <;> rfl

/-- **Lists** are refused for faults of their members. -/
theorem tellsFaults_tuple {read : Intake α} (h : TellsFaults read) : TellsFaults (tuple read) := by
  have hitems : ∀ xs index, unlisted? (items read index xs) = none := by
    intro xs
    -- on the members, each of which knows its place
    induction xs with
    | nil => exact fun _ => rfl
    | cons d ds ih =>
      intro index
      unfold items
      rw [unlisted?_bind, unlisted?_both, unlisted?_under, h d, ih]
      · rfl
      · exact fun _ => rfl
  intro d
  unfold tuple
  split
  · exact hitems _ _
  · rfl

end Intake

/-! ### Refusals of policies -/

open Intake

namespace Policy

theorem tellsFaults_name : TellsFaults name := fun _ => rfl

/-- A list of names is refused without faults just when it cannot be gone through. -/
theorem unlisted?_normalNames (d : Datum) : unlisted? (normalNames d) = d.unlisted? := by
  cases d <;> rfl

/-- A record that has one field of names is refused for what stands there. -/
private theorem unlisted?_recordNamed {α : Type} (name field : Text)
    {read : List (Datum × Datum) → Except Refusal α}
    (h : ∀ es, unlisted? (read es) = (Datum.lookup? field es).bind Datum.unlisted?) (d : Datum) :
    unlisted? (recordNamed name read d) = (d.field? field).bind Datum.unlisted? := by
  cases d with
  | record es => exact h es
  | _ => rfl

/-- A record without such a field is refused for faults only. -/
private theorem tellsFaults_recordNamed {α : Type} {name : Text}
    {read : List (Datum × Datum) → Except Refusal α} (h : ∀ es, unlisted? (read es) = none) :
    TellsFaults (recordNamed name read) := by
  intro d
  cases d with
  | record es => exact h es
  | _ => rfl

private theorem tellsFaults_schemas : TellsFaults SchemaRules.intake := by
  refine tellsFaults_recordNamed fun es => ?_
  dsimp only
  rw [unlisted?_bind _ fun _ => rfl, unlisted?_both,
    (tellsFaults_tuple tellsFaults_text).withDefault, (tellsFaults_integerFrom 1).withDefault]
  rfl

/-- What cannot be gone through in rules about entity types stands under the key of their names. -/
private theorem unlisted?_entities (d : Datum) :
    unlisted? (EntityRules.intake d) = (d.field? "known").bind Datum.unlisted? := by
  refine unlisted?_recordNamed _ _ (fun es => ?_) d
  dsimp only
  rw [unlisted?_bind _ fun _ => rfl, unlisted?_both, unlisted?_withDefault,
    (tellsFaults_integerFrom 1).withDefault, Option.or_none]
  simp only [unlisted?_normalNames]

private theorem tellsFaults_spatial : TellsFaults SpatialRules.intake := by
  refine tellsFaults_recordNamed fun es => ?_
  dsimp only
  rw [unlisted?_bind _ fun _ => rfl, unlisted?_both, tellsFaults_name.withDefault,
    tellsFaults_name.withDefault]
  rfl

private theorem tellsFaults_propertySets : TellsFaults PropertySetRules.intake := by
  refine tellsFaults_recordNamed fun es => ?_
  dsimp only
  rw [unlisted?_bind _ fun _ => rfl, unlisted?_both, unlisted?_both, tellsFaults_name.withDefault,
    tellsFaults_text.withDefault, (tellsFaults_tuple tellsFaults_text).withDefault]
  rfl

/-- What cannot be gone through in rules about geometry stands under the key of its names. -/
private theorem unlisted?_geometry (d : Datum) :
    unlisted? (GeometryRules.intake d) = (d.field? "entities").bind Datum.unlisted? := by
  refine unlisted?_recordNamed _ _ (fun es => ?_) d
  dsimp only
  rw [unlisted?_bind _ fun _ => rfl, unlisted?_withDefault]
  simp only [unlisted?_normalNames]

/-- What cannot be gone through in recommended practice stands in the place of the materials. -/
private theorem unlisted?_practice (d : Datum) :
    unlisted? (PracticeRules.intake d) = (d.field? "materials").bind Datum.unlisted? := by
  refine unlisted?_recordNamed _ _ (fun es => ?_) d
  dsimp only
  rw [unlisted?_bind _ fun _ => rfl, unlisted?_both, unlisted?_both, tellsFaults_name.withDefault,
    tellsFaults_name.withDefault, unlisted?_withDefault, Option.none_or, Option.none_or]
  simp only [unlisted?_normalNames]

private theorem tellsFaults_estimator : TellsFaults Coefficients.intake := by
  refine tellsFaults_recordNamed fun es => ?_
  dsimp only
  rw [unlisted?_bind, unlisted?_both, unlisted?_both, unlisted?_both, unlisted?_both,
    tellsFaults_nonNegative.withDefault, tellsFaults_nonNegative.withDefault,
    tellsFaults_nonNegative.withDefault, tellsFaults_nonNegative.withDefault,
    tellsFaults_nonNegative.withDefault]
  · rfl
  · -- the bounds of the estimate exclude each other, which is a fault
    intro c
    split <;> rfl

/-- **A policy is refused without faults** just when something stands in the place of a list of
names that cannot be gone through; the refusal names the kind of the first such thing. -/
theorem intake_eq_notIterable_iff {d : Datum} {kind : Text} :
    intake d = .error (.notIterable kind) ↔ misplaced? d = some kind := by
  rw [← unlisted?_eq_some_iff]
  have hintake : unlisted? (intake d) = misplaced? d := by
    cases d with
    | record es =>
      unfold intake recordNamed misplaced? nameLists
      dsimp only
      rw [unlisted?_bind _ fun _ => rfl]
      simp only [unlisted?_both, unlisted?_withDefault, unlisted?_entities, unlisted?_geometry,
        unlisted?_practice, tellsFaults_schemas.withDefault, tellsFaults_spatial.withDefault,
        tellsFaults_propertySets.withDefault, tellsFaults_estimator.withDefault, Option.none_or,
        Option.or_none, ← Option.bind_assoc]
      -- the places are gone through in the same order
      have hor : ∀ (place : Text × Text) places (f : Text × Text → Option Text),
          (place :: places).findSome? f = (f place).or (places.findSome? f) := by
        intro place places f
        rw [List.findSome?_cons]
        cases f place <;> rfl
      rw [hor, hor, hor, List.findSome?_nil, Option.or_none]
      rfl
    | _ => rfl
  rw [hintake]

end Policy

end StepCheck
