import StepCheck.Proofs.Policy.Accepted
import StepCheck.Report.Basic
import StepCheck.Run.Notification

/-!
# Nothing is refused on the way

Notifications and reports are records like any other: they are taken in field by field, and a
negative time is refused. A run builds them from its own numbers, and this module shows that those
are always taken, so that nothing but the sink can end a run over a text.

* `Notification.of` — the announcement of a stage, built outright;
* `Notification.announce_eq_ok` — announcing a stage gives it, whatever the estimate, as long as
  that is not negative;
* `Report.of`, `Report.assemble_eq_ok` — the same for the report of a run.
-/

namespace StepCheck

/-! ### The time left -/

/-- The percentages that may still be to come are positive finite numbers. -/
private theorem positive_ofInt {i : Int} (hi : 0 < i) (hi' : i ≤ 100) :
    Binary64.Positive (Binary64.ofInt i).toModel.unpack := by
  -- the hundred of them are computed one by one, without a law about rounding
  have hall : ∀ n : Fin 100,
      Binary64.Positive (Binary64.ofInt (n.val + 1 : Nat)).toModel.unpack = true := by
    decide +kernel
  have h := hall ⟨(i - 1).toNat, by omega⟩
  have hcast : (((i - 1).toNat + 1 : Nat) : Int) = i := by omega
  rw [hcast] at h
  exact h

/-- **The time left is never negative**, and always a number. -/
theorem zero_le_timeLeft {estimated : Float} {progress : Int} (he : 0 ≤ estimated)
    (hp : 0 ≤ progress) (hp' : progress ≤ 100) :
    0 ≤ timeLeft estimated (Binary64.ofInt (100 - progress)) := by
  unfold timeLeft
  split
  · decide
  · next hleft =>
    have hlt : progress < 100 := by
      rcases Int.lt_or_eq_of_le hp' with hlt | rfl
      · exact hlt
      · exact absurd (by decide) hleft
    have hshare : Binary64.Positive (Binary64.ofInt (100 - progress)).toModel.unpack :=
      positive_ofInt (by omega) (by omega)
    have hmul := Binary64.zero_le_mul he hshare
    exact Binary64.zero_le_roundedTo 2 (Binary64.zero_le_div hmul rfl)

/-! ### Announcements -/

namespace Notification

/-- **The announcement of a stage**, built outright. -/
def of (estimated : Float) (stage : Stage) (progress : Int) : Notification where
  stage := stage
  progress := progress
  timeLeft := some (StepCheck.timeLeft estimated (Binary64.ofInt (100 - progress)))

/-- The word for a stage is read as the stage. -/
private theorem word_wire (stage : Stage) :
    Intake.word Stage.all Stage.wire (.text stage.wire) = .ok stage := by
  rcases stage with _ | ⟨_ | _ | _ | _ | _⟩ | _ | _ <;> rfl

/-- A number within the bounds is taken in. -/
private theorem integerBetween_int {low high i : Int} (hl : low ≤ i) (hh : i ≤ high) :
    Intake.integerBetween low high (.int i) = .ok i := by
  have hfrom : Intake.integerFrom low (.int i) = .ok i := if_neg (by omega)
  unfold Intake.integerBetween
  rw [hfrom]
  exact if_neg (by omega)

/-- **Announcements are never refused**: the percentage is one, and the time left is not negative.
-/
theorem announce_eq_ok {estimated : Float} {progress : Int} (stage : Stage) (he : 0 ≤ estimated)
    (hp : 0 ≤ progress) (hp' : progress ≤ 100) :
    announce estimated stage progress = .ok (of estimated stage progress) := by
  -- the entries of the record, each of which is taken by its field
  let left := StepCheck.timeLeft estimated (Binary64.ofInt (100 - progress))
  let es : List (Datum × Datum) := [(.ofString "stage", .text stage.wire),
    (.ofString "progress", .int progress), (.ofString "estimated_time_left", .real left)]
  have hstage : Intake.required "stage" (Intake.word Stage.all Stage.wire) es = .ok stage :=
    congrArg (Intake.under (.field "stage")) (word_wire stage)
  have hprogress : Intake.required "progress" (Intake.integerBetween 0 100) es = .ok progress :=
    congrArg (Intake.under (.field "progress")) (integerBetween_int hp hp')
  have hleft : Intake.withDefault "estimated_time_left" none (Intake.nullable Intake.nonNegative) es
      = .ok (some left) :=
    congrArg (fun answer : Except Refusal Float =>
        Intake.under (.field "estimated_time_left") (answer.map some))
      (Intake.nonNegative_real (zero_le_timeLeft he hp hp'))
  -- the reading of the record, with the entries looked up
  change (Intake.both (Intake.required "stage" (Intake.word Stage.all Stage.wire) es)
    (Intake.both (Intake.required "progress" (Intake.integerBetween 0 100) es)
      (Intake.withDefault "estimated_time_left" none (Intake.nullable Intake.nonNegative) es))
    >>= _) = _
  rw [hstage, hprogress, hleft]
  rfl

end Notification

/-! ### Reports -/

namespace Report

/-- **The report of a list of outcomes**, built outright. -/
def of (filename : Text) (validationTime estimatedTime : Float) (results : List Outcome) :
    Report where
  filename := filename
  isValid := (Summary.of results).errors = 0
  validationTime := validationTime
  estimatedTime := estimatedTime
  summary := Summary.of results
  results := results

@[simp] theorem of_results (filename : Text) (validationTime estimatedTime : Float)
    (results : List Outcome) :
    (of filename validationTime estimatedTime results).results = results := rfl

/-- **Reports are never refused** where neither time is negative. -/
theorem assemble_eq_ok {filename : Text} {validationTime estimatedTime : Float}
    (results : List Outcome) (hv : 0 ≤ validationTime) (he : 0 ≤ estimatedTime) :
    assemble (.text filename) (.real validationTime) (.real estimatedTime) results
      = .ok (of filename validationTime estimatedTime results) := by
  unfold assemble
  rw [Intake.nonNegative_real hv, Intake.nonNegative_real he]
  rfl

end Report

end StepCheck
