import StepCheck.Run.Pipeline

/-!
# Pools of pipelines

Several pipelines can be at work at the same time, each under a name. A pool keeps them, and a
session is a list of requests to the pipelines of a pool, in whatever order they come.

* `Request` — what a pipeline is asked for;
* `Pool.step` — one request, with the answer;
* `Pool.session` — one request after the other, with all answers.
-/

namespace StepCheck

/-- **What a pipeline is asked for.** -/
inductive Request
  /-- A new pipeline is made, perhaps with a policy, and takes the name. -/
  | create (policy : Option Policy)
  /-- The pipeline is initialised. -/
  | prepare
  /-- A content is checked. -/
  | validate (sink : Option Sink) (elapsed : Datum) (content : Content) (filename : Datum)

/-- **What is seen of a request.** -/
structure Answer where
  /-- The pipeline afterwards. -/
  pipeline : Pipeline
  /-- The notifications sent, in order. -/
  sent : List Notification
  /-- What a check gives. Other requests give nothing. -/
  result : Option (Except RunError Report)

/-- The answer of a pipeline to a request; there is none if there is no pipeline to be asked. -/
def Request.answer (p : Option Pipeline) : Request → Option Answer
  | create policy => some ⟨Pipeline.new policy, [], none⟩
  | prepare => p.map fun p => ⟨p.ready, [], none⟩
  | validate sink elapsed content filename => p.map fun p =>
    let run := p.validate sink elapsed content filename
    ⟨run.pipeline, run.sent, some run.result⟩

/-- **A pool**: the pipelines that have a name. -/
abbrev Pool : Type := Text → Option Pipeline

namespace Pool

/-- The pool without pipelines. -/
def empty : Pool := fun _ => none

/-- The pool with a pipeline under a name. -/
def put (pool : Pool) (name : Text) (p : Pipeline) : Pool :=
  fun other => if other = name then some p else pool other

/-- **One request** to the pipeline of a name. Where nobody has the name, nothing happens. -/
def step (pool : Pool) (name : Text) (r : Request) : Pool × Option Answer :=
  match r.answer (pool name) with
  | some a => (pool.put name a.pipeline, some a)
  | none => (pool, none)

/-- **A session**: the requests one after the other, with the answer to each. -/
def session (pool : Pool) : List (Text × Request) → Pool × List (Option Answer)
  | [] => (pool, [])
  | (name, r) :: rest =>
    let (pool, answer) := pool.step name r
    let (pool, answers) := session pool rest
    (pool, answer :: answers)

end Pool

end StepCheck
