import StepCheck.Proofs.Policy.Accepted
import StepCheck.Run.Pool

/-!
# What can happen in a session

A session asks the pipelines of a pool for one thing after the other. This module says once what a
single request can do to the pipeline of a name, and carries properties of pipelines through whole
sessions by induction over the requests.

* `Pool.after` — the pool after a session;
* `Pool.step_cases` — where the pipeline of a name comes from after one request;
* `Pool.after_induction` — what every request keeps holds after every session;
* `Pool.given` — the policy given at the last creation of a name, and `Pipeline.MadeWith`, which
  says how a pipeline still knows it (`Pool.madeWith_of_after`);
* `Pool.accepted_of_given` — the policies of a session of acceptable requests are accepted.
-/

namespace StepCheck

/-! ### One pipeline -/

namespace Pipeline

section Kept

variable (p : Pipeline) (sink : Option Sink) (elapsed : Datum) (content : Content)
  (filename : Datum)

/-- A run changes nothing about a pipeline but its outcomes. -/
theorem exists_pipeline_validate :
    ∃ os, (p.validate sink elapsed content filename).pipeline = { p with outcomes := os } := by
  unfold validate
  -- one case for each of the ways in which a run can end
  split
  · split
    · exact ⟨p.outcomes, rfl⟩
    · unfold runText
      dsimp only
      split
      · exact ⟨_, rfl⟩
      · split
        · exact ⟨_, rfl⟩
        · split <;> exact ⟨_, rfl⟩
  · exact ⟨p.outcomes, rfl⟩

@[simp] theorem policy_validate :
    (p.validate sink elapsed content filename).pipeline.policy = p.policy := by
  obtain ⟨os, h⟩ := p.exists_pipeline_validate sink elapsed content filename
  rw [h]

@[simp] theorem estimator_validate :
    (p.validate sink elapsed content filename).pipeline.estimator = p.estimator := by
  obtain ⟨os, h⟩ := p.exists_pipeline_validate sink elapsed content filename
  rw [h]

@[simp] theorem isInitialized_validate :
    (p.validate sink elapsed content filename).pipeline.isInitialized = p.isInitialized := by
  obtain ⟨os, h⟩ := p.exists_pipeline_validate sink elapsed content filename
  rw [h]

end Kept

/-- Making a pipeline ready twice changes nothing. -/
theorem ready_of_isInitialized {p : Pipeline} (h : p.isInitialized) : p.ready = p := if_pos h

/-- A pipeline that is made ready is initialised. -/
theorem isInitialized_ready (p : Pipeline) : p.ready.isInitialized := by
  unfold ready
  split
  · next h => exact h
  · rfl

/-- A pipeline that is made ready without a policy has the bundled one. -/
theorem policy_ready (p : Pipeline) :
    p.ready.policy
      = if p.isInitialized then p.policy else some (p.policy.getD Policy.bundled) := by
  unfold ready
  split <;> rfl

/-- **A pipeline made with a policy**, or without one: as long as it has not been initialised it has
just that policy, and then the bundled one in its place if there is none. -/
def MadeWith (policy : Option Policy) (p : Pipeline) : Prop :=
  p.policy = if p.isInitialized then some (policy.getD Policy.bundled) else policy

theorem madeWith_new (policy : Option Policy) : (new policy).MadeWith policy := rfl

/-- Making a pipeline ready keeps what it was made with. -/
theorem MadeWith.ready {policy : Option Policy} {p : Pipeline} (h : p.MadeWith policy) :
    p.ready.MadeWith policy := by
  unfold MadeWith at h ⊢
  rw [policy_ready, if_pos p.isInitialized_ready]
  by_cases hi : p.isInitialized
  · rw [if_pos hi] at h ⊢
    exact h
  · rw [if_neg hi] at h ⊢
    rw [h]

/-- A run keeps what its pipeline was made with. -/
theorem MadeWith.validate {policy : Option Policy} {p : Pipeline} (h : p.MadeWith policy)
    (sink : Option Sink) (elapsed : Datum) (content : Content) (filename : Datum) :
    (p.validate sink elapsed content filename).pipeline.MadeWith policy := by
  unfold MadeWith at h ⊢
  rw [policy_validate, isInitialized_validate]
  exact h

/-- A pipeline that has been initialised has the policy that it was made with, or the bundled one.
-/
theorem MadeWith.policy_eq {policy : Option Policy} {p : Pipeline} (h : p.MadeWith policy)
    (hi : p.isInitialized) : p.policy = some (policy.getD Policy.bundled) := by
  unfold MadeWith at h
  rw [if_pos hi] at h
  exact h

end Pipeline

/-! ### One request -/

namespace Pool

/-- **Where a pipeline comes from** after one request: another name is not touched, and the name
that is asked has a new pipeline, or its own one initialised, or its own one after a run. -/
theorem step_cases {pool : Pool} {name other : Text} {r : Request} {p' : Pipeline}
    (h : (pool.step name r).1 other = some p') :
    (other ≠ name ∧ pool other = some p') ∨
    (other = name ∧ ∃ policy, r = .create policy ∧ p' = .new policy) ∨
    (other = name ∧ ∃ p, pool other = some p ∧ r = .prepare ∧ p' = p.ready) ∨
    (other = name ∧ ∃ p sink elapsed content filename, pool other = some p ∧
      r = .validate sink elapsed content filename ∧
      p' = (p.validate sink elapsed content filename).pipeline) := by
  -- the pipelines of other names are looked up past the one that has been put
  by_cases hname : other = name
  · subst hname
    cases r with
    | create policy =>
      simp only [step, Request.answer, put, if_true, Option.some.injEq] at h
      exact .inr (.inl ⟨rfl, policy, rfl, h.symm⟩)
    | prepare =>
      cases hp : pool other with
      | none => simp [step, Request.answer, hp] at h
      | some p =>
        simp only [step, Request.answer, hp, Option.map_some, put, if_true, Option.some.injEq] at h
        exact .inr (.inr (.inl ⟨rfl, p, rfl, rfl, h.symm⟩))
    | validate sink elapsed content filename =>
      cases hp : pool other with
      | none => simp [step, Request.answer, hp] at h
      | some p =>
        simp only [step, Request.answer, hp, Option.map_some, put, if_true, Option.some.injEq] at h
        exact .inr (.inr (.inr ⟨rfl, p, sink, elapsed, content, filename, rfl, rfl, h.symm⟩))
  · refine .inl ⟨hname, ?_⟩
    unfold step at h
    split at h
    · simp only [put, if_neg hname] at h
      exact h
    · exact h

/-! ### Sessions -/

/-- **The pool after a session** that begins without pipelines. -/
def after (history : List (Text × Request)) : Pool := (empty.session history).1

/-- A session is a session and another one behind it. -/
theorem session_append (pool : Pool) (first second : List (Text × Request)) :
    pool.session (first ++ second)
      = (((pool.session first).1.session second).1,
          (pool.session first).2 ++ ((pool.session first).1.session second).2) := by
  induction first generalizing pool with
  | nil => rfl
  | cons r rest ih =>
    obtain ⟨name, r⟩ := r
    simp only [List.cons_append, session]
    rw [ih]

/-- Each request is answered. -/
theorem length_session (pool : Pool) (requests : List (Text × Request)) :
    (pool.session requests).2.length = requests.length := by
  induction requests generalizing pool with
  | nil => rfl
  | cons r rest ih =>
    obtain ⟨name, r⟩ := r
    simp only [session, List.length_cons]
    rw [ih]

/-- One request more is one step more. -/
theorem after_concat (history : List (Text × Request)) (name : Text) (r : Request) :
    after (history ++ [(name, r)]) = ((after history).step name r).1 := by
  unfold after
  rw [session_append]
  rfl

/-- The answer to a request of a session is that of the pool after the requests before it. -/
theorem getElem?_session {requests : List (Text × Request)} {i : Nat} {name : Text} {r : Request}
    (hi : requests[i]? = some (name, r)) :
    (empty.session requests).2[i]? = some ((after (requests.take i)).step name r).2 := by
  obtain ⟨hlt, hget⟩ := List.getElem?_eq_some_iff.mp hi
  -- later requests change no answer, so the session is cut at the request
  have hsplit : requests = requests.take i ++ (name, r) :: requests.drop (i + 1) := by
    rw [← hget, List.getElem_cons_drop, List.take_append_drop]
  have hlength : (empty.session (requests.take i)).2.length = i := by
    rw [length_session, List.length_take_of_le (by omega)]
  calc (empty.session requests).2[i]?
      = (empty.session (requests.take i ++ (name, r) :: requests.drop (i + 1))).2[i]? := by
        rw [← hsplit]
    _ = some ((after (requests.take i)).step name r).2 := by
        rw [session_append, List.getElem?_append_right (by omega), hlength, Nat.sub_self]
        rfl

/-- **What every request keeps** holds of all pipelines after every session. The property may speak
of the requests so far. -/
theorem after_induction {motive : List (Text × Request) → Text → Pipeline → Prop}
    (hstep : ∀ history name r other p',
      (∀ p, after history other = some p → motive history other p) →
      ((after history).step name r).1 other = some p' → motive (history ++ [(name, r)]) other p')
    {history : List (Text × Request)} {name : Text} {p : Pipeline}
    (hp : after history name = some p) : motive history name p := by
  -- from the back: the pool before the last request is that of a shorter session
  induction history using List.reverseRecOn generalizing name p with
  | nil => cases hp
  | append_singleton history request ih =>
    obtain ⟨asked, r⟩ := request
    rw [after_concat] at hp
    exact hstep history asked r name p (fun p hp => ih hp) hp

/-! ### Policies of a session -/

/-- The policy, if any, with which a request makes a new pipeline of a name. -/
def creation? (name : Text) : Text × Request → Option (Option Policy)
  | (asked, .create policy) => if asked = name then some policy else none
  | _ => none

/-- **The policy given at the last creation** of a name; `none` if the name was never given. -/
def given (name : Text) (history : List (Text × Request)) : Option (Option Policy) :=
  history.reverse.findSome? (creation? name)

/-- The last creation counts. -/
theorem given_concat (name : Text) (history : List (Text × Request)) (request : Text × Request) :
    given name (history ++ [request])
      = (creation? name request).or (given name history) := by
  unfold given
  rw [List.reverse_append, List.reverse_singleton, List.singleton_append, List.findSome?_cons]
  cases creation? name request <;> rfl

/-- **Every pipeline** of a session has been made with the policy given at the last creation of its
name. -/
theorem madeWith_of_after {history : List (Text × Request)} {name : Text} {p : Pipeline}
    (hp : after history name = some p) :
    ∃ policy, given name history = some policy ∧ p.MadeWith policy := by
  refine after_induction
    (motive := fun history name p => ∃ policy, given name history = some policy ∧ p.MadeWith policy)
    ?_ hp
  intro history name r other p' ih hp'
  rw [given_concat]
  -- the pipeline is another one, or has been made, made ready or used by the last request
  rcases step_cases hp' with ⟨hother, hp⟩ | ⟨rfl, policy, rfl, rfl⟩ | ⟨rfl, p, hp, rfl, rfl⟩ |
    ⟨rfl, p, sink, elapsed, content, filename, hp, rfl, rfl⟩
  · -- a request to another name is no creation of this one
    have hnone : creation? other (name, r) = none := by
      cases r with
      | create policy => exact if_neg (fun h => hother h.symm)
      | prepare => rfl
      | validate => rfl
    rw [hnone]
    exact ih p' hp
  · refine ⟨policy, ?_, Pipeline.madeWith_new policy⟩
    rw [creation?, if_pos rfl]
    rfl
  · obtain ⟨policy, hgiven, h⟩ := ih p hp
    exact ⟨policy, hgiven, h.ready⟩
  · obtain ⟨policy, hgiven, h⟩ := ih p hp
    exact ⟨policy, hgiven, h.validate sink elapsed content filename⟩

end Pool

/-- **A request is acceptable** if the policy that it gives, if it gives one, is accepted. -/
def Request.Acceptable : Request → Prop
  | create policy => ∀ P, policy = some P → P.Accepted
  | prepare => True
  | validate .. => True

/-- In a session of acceptable requests the policy given to a name is accepted. -/
theorem Pool.accepted_of_given {history : List (Text × Request)}
    (ha : ∀ request ∈ history, request.2.Acceptable) {name : Text} {policy : Option Policy}
    (h : given name history = some policy) : (policy.getD Policy.bundled).Accepted := by
  -- the last creation is one of the requests of the session
  obtain ⟨⟨asked, r⟩, hr, hcreation⟩ := List.exists_of_findSome?_eq_some h
  cases r with
  | create policy' =>
    have hacceptable := ha _ (List.mem_reverse.mp hr)
    simp only [creation?] at hcreation
    split at hcreation
    · obtain rfl := Option.some.inj hcreation
      cases policy' with
      | none => exact Policy.accepted_bundled
      | some P => exact hacceptable P rfl
    · cases hcreation
  | prepare => cases hcreation
  | validate => cases hcreation

end StepCheck
