import StepCheck.Run.Sink
import StepCheck.Report.Basic
import StepCheck.Policy.Bundled
import StepCheck.Policy.Estimate

/-!
# Pipelines

A pipeline checks one file after the other under one policy. It has to be initialised first, which
settles the policy, the one it was made with or else the bundled one, and the numbers of its time
estimates. The outcomes of the last run stay with it, and those of a run that was interrupted as far
as it came.

* `Pipeline` — a pipeline, with `Pipeline.new` and `Pipeline.ready`;
* `Pipeline.validate` — one run, with everything that can be seen of it;
* `validateContent` — one run of a fresh pipeline.
-/

namespace StepCheck

/-- **What is handed in** to be checked. -/
inductive Content
  | text (t : Text)
  | bytes (bs : List UInt8)
  /-- Something of another kind. -/
  | other (kind : Text)
deriving DecidableEq

/-- **Why a run gives no report.** -/
inductive RunError
  /-- The pipeline has not been initialised. -/
  | notInitialized
  /-- The content of the named file is no text, for a reason. -/
  | undecodable (filename reason : Text)
  | interrupted (i : Interruption)
  /-- The report was refused. -/
  | refused (r : Refusal)
deriving DecidableEq

namespace RunError

/-- The text about a pipeline that has not been initialised. -/
def notInitializedMessage : Text := "ValidationPipeline.initialize() must be called before use"

/-- The text about a content that is no text. -/
def undecodableMessage (filename reason : Text) : Text :=
  "Unable to decode " ++ filename ++ " as UTF-8: " ++ reason

end RunError

/-- The name of a file that is handed in without one. -/
def unknownFilename : Text := "unknown.ifc"

namespace Content

/-- The text of what is handed in. Bytes have to be UTF-8. -/
def toText (filename : Text) : Content → Except RunError Text
  | text t => .ok t
  | bytes bs =>
    match Utf8.decode .strict bs with
    | .ok t => .ok t
    | .error e => .error (.undecodable filename e.message)
  | other kind => .error (.undecodable filename ("expected text, got " ++ kind))

end Content

/-- **A pipeline.** -/
structure Pipeline where
  /-- The policy that it checks by. Before it is initialised it may have none. -/
  policy : Option Policy
  /-- The numbers of its time estimates, which initialising takes from the policy. -/
  estimator : Option (Coefficients Float)
  /-- The outcomes of the last run. -/
  outcomes : List Outcome
  /-- Whether it has been initialised. -/
  isInitialized : Bool
  /-- Once initialised, a pipeline has a policy and the time estimates of that policy. -/
  settled : isInitialized → ∃ P, policy = some P ∧ estimator = some P.estimator

namespace Pipeline

/-- A new pipeline, perhaps with a policy. -/
def new (policy : Option Policy) : Pipeline where
  policy := policy
  estimator := none
  outcomes := []
  isInitialized := false
  settled := nofun

/-- Whether the pipeline has a policy. -/
def hasPolicy (p : Pipeline) : Bool := p.policy.isSome

/-- **The pipeline initialised.** A second time changes nothing. -/
def ready (p : Pipeline) : Pipeline :=
  if p.isInitialized then p
  else
    let policy := p.policy.getD Policy.bundled
    { p with
      policy := some policy
      estimator := some policy.estimator
      isInitialized := true
      settled := fun _ => ⟨policy, rfl, rfl⟩ }

theorem isSome_policy {p : Pipeline} (h : p.isInitialized) : p.policy.isSome := by
  obtain ⟨P, hP, -⟩ := p.settled h
  rw [hP, Option.isSome_some]

theorem isSome_estimator {p : Pipeline} (h : p.isInitialized) : p.estimator.isSome := by
  obtain ⟨P, -, hE⟩ := p.settled h
  rw [hE, Option.isSome_some]

/-- **What is seen of a run.** -/
structure Run where
  /-- The pipeline afterwards. -/
  pipeline : Pipeline
  /-- The notifications sent, in order. -/
  sent : List Notification
  result : Except RunError Report

/-- A run that is refused before it starts. -/
def refusedRun (p : Pipeline) (e : RunError) : Run := ⟨p, [], .error e⟩

/-- A run over a text, under a policy and with the numbers of an estimate. -/
def runText (p : Pipeline) (policy : Policy) (estimator : Coefficients Float) (sink : Option Sink)
    (elapsed : Datum) (t : Text) (filename : Datum) : Run :=
  let estimated := estimator.estimate t
  let outcomes := CheckGroup.outcomes policy (Layout.of t)
  let perform := RunStep.perform sink estimated outcomes
  let seen (trace : RunStep.Trace) (result : Except RunError Report) : Run :=
    ⟨{ p with outcomes := trace.outcomes }, trace.sent, result⟩
  match perform ⟨[], p.outcomes⟩ RunStep.schedule with
  | (trace, some i) => seen trace (.error (.interrupted i))
  | (trace, none) =>
    match Report.assemble filename elapsed (.real estimated) trace.outcomes with
    | .error r => seen trace (.error (.refused r))
    | .ok report =>
      match perform trace RunStep.closing with
      | (trace, some i) => seen trace (.error (.interrupted i))
      | (trace, none) => seen trace (.ok report)

/-- **One run**: the content is checked under the policy of the pipeline, taking `elapsed` seconds.
A pipeline that has not been initialised and a content that is no text are refused, in this order.
-/
def validate (p : Pipeline) (sink : Option Sink) (elapsed : Datum) (content : Content)
    (filename : Datum) : Run :=
  if h : p.isInitialized then
    match content.toText filename.shown with
    | .error e => p.refusedRun e
    | .ok t =>
      p.runText (p.policy.get (isSome_policy h)) (p.estimator.get (isSome_estimator h)) sink elapsed
        t filename
  else p.refusedRun .notInitialized

end Pipeline

/-- **One run of a fresh pipeline.** -/
def validateContent (policy : Option Policy) (sink : Option Sink) (elapsed : Datum)
    (content : Content) (filename : Datum) : Pipeline.Run :=
  (Pipeline.new policy).ready.validate sink elapsed content filename

end StepCheck
