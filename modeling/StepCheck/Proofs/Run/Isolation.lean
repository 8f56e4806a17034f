import StepCheck.Proofs.Run.Perform
import StepCheck.Proofs.Run.Session

/-!
# Runs do not influence each other

A pipeline keeps the outcomes of its last run, also of one that came to nothing, and a pool keeps
many pipelines. Neither is ever seen in a later run: what a run gives and what it sends depend on
its own arguments and on the policy with which its pipeline was made.

The outcomes of an earlier run are dropped only after the first announcement. A run is therefore
compared with one from other outcomes step by step as far as that announcement
(`RunStep.perform_schedule_cases`): either the sink fails on it, and the outcomes stay as they were,
or everything is the same from there on.

* `Pipeline.validate_congr` — pipelines of one policy give the same, whatever outcomes they keep;
* `Pool.validate_isolated` — every run of every session gives what a fresh pipeline gives, and an
  initialised pipeline keeps its policy and its estimates.
-/

namespace StepCheck

/-! ### One run -/

namespace RunStep

/-- An announcement neither reads nor changes outcomes. -/
private theorem send_outcomes (sink : Option Sink) (estimated : Float) (stage : Stage)
    (progress : Int) (sent : List Notification) :
    ∃ sent' i, ∀ os, send sink estimated ⟨sent, os⟩ stage progress = (⟨sent', os⟩, i) := by
  unfold send
  cases sink with
  | none => exact ⟨sent, none, fun os => rfl⟩
  | some s =>
    dsimp only
    cases Notification.announce estimated stage progress with
    | error r => exact ⟨sent, some (.refused r), fun os => rfl⟩
    | ok n => exact ⟨sent ++ [n], (s.receive sent n).map Interruption.sinkFailed, fun os => rfl⟩

/-- **Outcomes of an earlier run** stay as they were if the first announcement ends the run, and
have no influence at all otherwise. -/
theorem perform_schedule_cases (sink : Option Sink) (estimated : Float)
    (outcomes : CheckGroup → List Outcome) :
    (∃ sent i, ∀ old,
      perform sink estimated outcomes ⟨[], old⟩ schedule = (⟨sent, old⟩, some i)) ∨
    ∃ done, ∀ old, perform sink estimated outcomes ⟨[], old⟩ schedule = done := by
  obtain ⟨sent, i, h⟩ := send_outcomes sink estimated .starting 0 []
  -- the outcomes of an earlier run are gone after the second step
  have hschedule : schedule = .announce .starting 0 :: .clear ::
      (CheckGroup.all.flatMap ofGroup ++ [.announce .finalizing 90]) := rfl
  cases i with
  | some i =>
    refine .inl ⟨sent, i, fun old => ?_⟩
    rw [hschedule, perform, h]
  | none =>
    refine .inr ⟨perform sink estimated outcomes ⟨sent, []⟩
      (CheckGroup.all.flatMap ofGroup ++ [.announce .finalizing 90]), fun old => ?_⟩
    rw [hschedule, perform, h]
    rfl

end RunStep

namespace Pipeline

variable {p q : Pipeline} {P : Policy}

/-- What is seen of a run over a text does not depend on the outcomes of an earlier run. -/
private theorem runText_congr (p q : Pipeline) (P : Policy) (estimator : Coefficients Float)
    (sink : Option Sink) (elapsed : Datum) (t : Text) (filename : Datum) :
    (p.runText P estimator sink elapsed t filename).sent
        = (q.runText P estimator sink elapsed t filename).sent ∧
      (p.runText P estimator sink elapsed t filename).result
        = (q.runText P estimator sink elapsed t filename).result := by
  unfold runText
  dsimp only
  rcases RunStep.perform_schedule_cases sink (estimator.estimate t)
    (CheckGroup.outcomes P (Layout.of t)) with ⟨sent, i, h⟩ | ⟨⟨trace, _ | i⟩, h⟩
  · rw [h, h]
    exact ⟨rfl, rfl⟩
  · rw [h, h]
    -- from here on both runs are the same, but for the pipeline that they are written back to
    dsimp only
    split
    · exact ⟨rfl, rfl⟩
    · split <;> exact ⟨rfl, rfl⟩
  · rw [h, h]
    exact ⟨rfl, rfl⟩

/-- **Pipelines of one policy** that have been initialised send the same and give the same. -/
theorem validate_congr (hp : p.isInitialized) (hq : q.isInitialized) (hP : p.policy = some P)
    (hQ : q.policy = some P) (sink : Option Sink) (elapsed : Datum) (content : Content)
    (filename : Datum) :
    (p.validate sink elapsed content filename).sent
        = (q.validate sink elapsed content filename).sent ∧
      (p.validate sink elapsed content filename).result
        = (q.validate sink elapsed content filename).result := by
  -- whether the content is a text is asked of the content alone
  cases ht : content.toText filename.shown with
  | error e =>
    rw [validate_of_toText_eq_error hp ht, validate_of_toText_eq_error hq ht]
    exact ⟨rfl, rfl⟩
  | ok t =>
    rw [validate_of_toText hp hP ht, validate_of_toText hq hQ ht]
    exact runText_congr p q P P.estimator sink elapsed t filename

/-- A pipeline that has been initialised gives what a fresh one gives that is made with its policy.
-/
theorem MadeWith.validate_eq {policy : Option Policy} (h : p.MadeWith policy)
    (hp : p.isInitialized) (sink : Option Sink) (elapsed : Datum) (content : Content)
    (filename : Datum) :
    (p.validate sink elapsed content filename).sent
        = (validateContent policy sink elapsed content filename).sent ∧
      (p.validate sink elapsed content filename).result
        = (validateContent policy sink elapsed content filename).result := by
  have hfresh := (madeWith_new policy).ready
  have hinit := isInitialized_ready (new policy)
  exact validate_congr hp hinit (h.policy_eq hp) (hfresh.policy_eq hinit) sink elapsed content
    filename

end Pipeline

/-! ### Sessions -/

namespace Pool

/-- **What an initialised pipeline keeps** as long as its name is not given again. -/
private theorem kept_of_given_eq_none {history : List (Text × Request)} {name : Text}
    {p : Pipeline} (hp : after history name = some p) (hi : p.isInitialized)
    {more : List (Text × Request)} (hmore : given name more = none) :
    ∃ p', after (history ++ more) name = some p' ∧ p'.isInitialized ∧ p'.policy = p.policy ∧
      p'.estimator = p.estimator := by
  -- on the further requests from the back, none of which gives the name again
  induction more using List.reverseRecOn with
  | nil =>
    rw [List.append_nil]
    exact ⟨p, hp, hi, rfl, rfl⟩
  | append_singleton more request ih =>
    obtain ⟨asked, r⟩ := request
    rw [given_concat, Option.or_eq_none_iff] at hmore
    obtain ⟨p', hp', hi', hpolicy, hestimator⟩ := ih hmore.2
    rw [← List.append_assoc, after_concat]
    by_cases hname : name = asked
    · subst hname
      unfold step
      cases r with
      | create policy =>
        -- a creation would have given the name again
        simp [creation?] at hmore
      | prepare =>
        refine ⟨p', ?_, hi', hpolicy, hestimator⟩
        simp only [Request.answer, hp', Option.map_some, put, if_true]
        rw [Pipeline.ready_of_isInitialized hi']
      | validate sink elapsed content filename =>
        refine ⟨(p'.validate sink elapsed content filename).pipeline, ?_, ?_, ?_, ?_⟩
        · simp only [Request.answer, hp', Option.map_some, put, if_true]
        · rw [Pipeline.isInitialized_validate]
          exact hi'
        · rw [Pipeline.policy_validate]
          exact hpolicy
        · rw [Pipeline.estimator_validate]
          exact hestimator
    · -- a request to another name leaves this one as it is
      refine ⟨p', ?_, hi', hpolicy, hestimator⟩
      unfold step
      split
      · simp only [put, if_neg hname]
        exact hp'
      · exact hp'

/-- **No run can influence another.** In every session, with runs of any pipelines in any order that
are refused, fail or are heard to their end, a run of a pipeline that has been initialised gives and
sends exactly what a fresh pipeline gives and sends for the same content, file name, seconds and
sink, under the policy that the pipeline was made with. And as long as nobody makes another pipeline
of that name, the pipeline stays initialised and keeps its policy and its estimates, whatever is
asked of it or of others. -/
theorem validate_isolated {requests : List (Text × Request)} {i : Nat} {name : Text} {p : Pipeline}
    (hp : after (requests.take i) name = some p) (hi : p.isInitialized) :
    (∃ policy, given name (requests.take i) = some policy ∧
      ∀ sink elapsed content filename,
        requests[i]? = some (name, .validate sink elapsed content filename) →
        ∃ a, (empty.session requests).2[i]? = some (some a) ∧
          a.sent = (validateContent policy sink elapsed content filename).sent ∧
          a.result = some (validateContent policy sink elapsed content filename).result) ∧
    ∀ j, i ≤ j → given name ((requests.take j).drop i) = none →
      ∃ p', after (requests.take j) name = some p' ∧ p'.isInitialized ∧ p'.policy = p.policy ∧
        p'.estimator = p.estimator := by
  constructor
  · -- the policy given last is the one that a fresh pipeline would be made with
    obtain ⟨policy, hgiven, hmade⟩ := madeWith_of_after hp
    refine ⟨policy, hgiven, ?_⟩
    intro sink elapsed content filename hrequest
    obtain ⟨hsent, hresult⟩ := hmade.validate_eq hi sink elapsed content filename
    refine ⟨⟨(p.validate sink elapsed content filename).pipeline,
      (p.validate sink elapsed content filename).sent,
      some (p.validate sink elapsed content filename).result⟩, ?_, hsent, congrArg some hresult⟩
    rw [getElem?_session hrequest]
    unfold step
    simp only [Request.answer, hp, Option.map_some]
  · -- the requests from `i` on are a session of their own, begun from the pool so far
    intro j hij hgiven
    have hsplit : requests.take j = requests.take i ++ (requests.take j).drop i := by
      have h := List.take_append_drop i (requests.take j)
      rw [List.take_take, Nat.min_eq_left hij] at h
      exact h.symm
    rw [hsplit]
    exact kept_of_given_eq_none hp hi hgiven

/-- A session in which a run is ended half-way by its sink, with outcomes left behind. -/
def leftover : List (Text × Request) :=
  [("a", .create none), ("a", .prepare), ("b", .create none),
    ("a", .validate (some (.failingOn 7 "full")) (.real 0) (.text "DATA;") (.text "a.ifc")),
    ("a", .validate none (.real 0) (.bytes [0x41]) (.text "b.ifc"))]

/-- The run that follows is the run of a fresh pipeline under the bundled policy. -/
theorem validate_isolated_leftover :
    ∃ a, (empty.session leftover).2[4]? = some (some a) ∧
      a.sent = (validateContent none none (.real 0) (.bytes [0x41]) (.text "b.ifc")).sent ∧
      a.result
        = some (validateContent none none (.real 0) (.bytes [0x41]) (.text "b.ifc")).result := by
  have hne : ("a" : Text) ≠ "b" := by decide
  have hp : after (leftover.take 4) "a" = some ((Pipeline.new none).ready.validate
      (some (.failingOn 7 "full")) (.real 0) (.text "DATA;") (.text "a.ifc")).pipeline := by
    simp [leftover, after, session, step, Request.answer, put, hne]
  have hi : ((Pipeline.new none).ready.validate (some (.failingOn 7 "full")) (.real 0)
      (.text "DATA;") (.text "a.ifc")).pipeline.isInitialized := by
    rw [Pipeline.isInitialized_validate]
    exact Pipeline.isInitialized_ready _
  have hgiven : given "a" (leftover.take 4) = some none := by
    simp [leftover, given, List.findSome?, creation?, hne.symm]
  obtain ⟨⟨policy, hpolicy, h⟩, -⟩ := validate_isolated hp hi
  rw [hgiven] at hpolicy
  cases hpolicy
  exact h none (.real 0) (.bytes [0x41]) (.text "b.ifc") rfl

end Pool

end StepCheck
