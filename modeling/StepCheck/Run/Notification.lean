import StepCheck.Rule.Stage
import StepCheck.Datum.Intake

/-!
# Progress notifications

A run announces each stage with the percentage of work done and the time that is left. The time left
is the share of the estimate that is still to come, rounded to hundredths of a second.

* `timeLeft` — the time left;
* `Notification` — an announcement;
* `Notification.announce` — the announcement of a stage, which is refused if the time is negative;
* `Notification.ofData` — the same for a stage and a percentage that are still data.
-/

namespace StepCheck

/-- **The time left** where `remaining` percent of the work are still to be done. -/
def timeLeft (estimated remaining : Float) : Float :=
  if remaining ≤ 0 then 0 else Binary64.roundedTo 2 (estimated * remaining / 100)

/-- **A progress notification.** -/
structure Notification where
  stage : Stage
  /-- The percentage of work done. -/
  progress : Int
  timeLeft : Option Float

namespace Notification

/-- **The notification of a datum**, or its faults. -/
def intake : Intake Notification := Intake.recordNamed "ProgressNotification" fun es => do
  let (stage, progress, timeLeft) ←
    Intake.both (Intake.required "stage" (Intake.word Stage.all Stage.wire) es)
      (Intake.both (Intake.required "progress" (Intake.integerBetween 0 100) es)
        (Intake.withDefault "estimated_time_left" none (Intake.nullable Intake.nonNegative) es))
  return { stage, progress, timeLeft }

/-- The notification whose parts are still data. -/
def assemble (stage progress timeLeft : Datum) : Except Refusal Notification :=
  intake (Datum.fields
    [("stage", stage), ("progress", progress), ("estimated_time_left", timeLeft)])

/-- **The announcement of a stage.** -/
def announce (estimated : Float) (stage : Stage) (progress : Int) : Except Refusal Notification :=
  assemble (.text stage.wire) (.int progress)
    (.real (StepCheck.timeLeft estimated (Binary64.ofInt (100 - progress))))

/-- The percentage that is left where a datum is done; the kind of the datum if it is no number. -/
def remaining : Datum → Except Text Float
  | .int i => .ok (Binary64.ofInt (100 - i))
  | .bool b => .ok (if b then 99 else 100)
  | .real x => .ok (100 - x)
  | d => .error d.kind

/-- **Why there is no announcement.** -/
inductive AnnounceError
  /-- The percentage is of a kind that cannot be compared with numbers. -/
  | notComparable (kind : Text)
  | refused (r : Refusal)
deriving DecidableEq

/-- The text of a percentage that cannot be compared. -/
def notComparableMessage (kind : Text) : Text :=
  "'>=' not supported between instances of '" ++ kind ++ "' and 'int'"

/-- **The announcement of a stage** and a percentage that are still data. -/
def ofData (estimated : Float) (stage progress : Datum) : Except AnnounceError Notification :=
  match remaining progress with
  | .error kind => .error (.notComparable kind)
  | .ok left =>
    match assemble stage progress (.real (StepCheck.timeLeft estimated left)) with
    | .ok n => .ok n
    | .error r => .error (.refused r)

end Notification

end StepCheck
