import StepCheck.Run.Notification
import StepCheck.Check.All

/-!
# Runs and their audience

A run sends its notifications one after the other to a sink, and a sink may fail. The run is then
over at once, with whatever outcomes it has gathered so far.

* `Sink` — who listens;
* `RunStep` — what a run does, in small steps, and `RunStep.schedule`, the same for every file;
* `RunStep.perform` — a list of steps carried out.
-/

namespace StepCheck

/-- **Who listens** to a run: the sink is given what it has received before and what it receives
now, and answers with a text if it fails on that. -/
structure Sink where
  receive : (earlier : List Notification) → Notification → Option Text

namespace Sink

/-- The sink that never fails. -/
def patient : Sink := ⟨fun _ _ => none⟩

/-- The sink that fails on any notification of a given percentage. -/
def failingAt (progress : Int) : Sink :=
  ⟨fun _ n =>
    if n.progress = progress then some ("sink failed at " ++ Text.ofInt progress) else none⟩

/-- The sink that fails on the notification of a given number, counted from 1. -/
def failingOn (number : Nat) (reason : Text) : Sink :=
  ⟨fun earlier _ => if earlier.length + 1 = number then some reason else none⟩

end Sink

/-- **Why a run is over** before its end. -/
inductive Interruption
  /-- The sink has failed. -/
  | sinkFailed (reason : Text)
  /-- A notification was refused. -/
  | refused (r : Refusal)
deriving DecidableEq

/-- **A step of a run.** -/
inductive RunStep
  /-- A stage is announced with its percentage. -/
  | announce (stage : Stage) (progress : Int)
  /-- The outcomes of an earlier run are dropped. -/
  | clear
  /-- The outcomes of a group of checks are added. -/
  | gather (group : CheckGroup)
deriving DecidableEq

namespace RunStep

/-- The steps around one group of checks. -/
def ofGroup (group : CheckGroup) : List RunStep :=
  [announce (.checking group) group.entry, announce (.checking group) group.exit, gather group]

/-- **The steps of every run** up to the report. -/
def schedule : List RunStep :=
  [announce .starting 0, clear] ++ CheckGroup.all.flatMap ofGroup ++ [announce .finalizing 90]

/-- The step after the report. -/
def closing : List RunStep := [announce .completed 100]

/-- **How far a run has come.** -/
structure Trace where
  /-- What has been sent, in order. -/
  sent : List Notification
  outcomes : List Outcome

/-- A notification is sent. Where nobody listens, nothing is. -/
def send (sink : Option Sink) (estimated : Float) (trace : Trace) (stage : Stage) (progress : Int) :
    Trace × Option Interruption :=
  match sink with
  | none => (trace, none)
  | some sink =>
    match Notification.announce estimated stage progress with
    | .error r => (trace, some (.refused r))
    | .ok n =>
      ({ trace with sent := trace.sent ++ [n] },
        (sink.receive trace.sent n).map Interruption.sinkFailed)

/-- **A list of steps carried out**, up to the first interruption. -/
def perform (sink : Option Sink) (estimated : Float) (outcomes : CheckGroup → List Outcome) :
    Trace → List RunStep → Trace × Option Interruption
  | trace, [] => (trace, none)
  | trace, announce stage progress :: steps =>
    match send sink estimated trace stage progress with
    | (trace, none) => perform sink estimated outcomes trace steps
    | interrupted => interrupted
  | trace, clear :: steps => perform sink estimated outcomes { trace with outcomes := [] } steps
  | trace, gather group :: steps =>
    perform sink estimated outcomes { trace with outcomes := trace.outcomes ++ outcomes group }
      steps

end RunStep

/-- **One group of checks** on its own, with its two notifications if somebody listens. -/
def CheckGroup.run (group : CheckGroup) (policy : Policy) (sink : Option Sink) (estimated : Float)
    (content : Text) : RunStep.Trace × Option Interruption :=
  RunStep.perform sink estimated (CheckGroup.outcomes policy (Layout.of content)) ⟨[], []⟩
    (RunStep.ofGroup group)

end StepCheck
