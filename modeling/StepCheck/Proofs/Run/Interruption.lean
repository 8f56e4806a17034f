import StepCheck.Proofs.Run.Perform
import StepCheck.Proofs.Run.Session

/-!
# What an interrupted run leaves behind

A run sends thirteen notifications, and its sink may fail on any of them. Which outcomes the
pipeline then keeps is decided by the order of the steps: the outcomes of the last run are dropped
after the first announcement, and those of a group of checks are added after the second announcement
of the group.

* `Pipeline.announcements` — the stages and percentages of every run;
* `Pipeline.Run.Complete`, `Pipeline.Run.CutAt` — a run that is heard to its end, and one that is
  cut short by its sink on the notification of some number;
* `Pool.validate_interrupted` — every run of a pipeline that a session has led to is refused before
  it starts, complete, or cut short where its sink fails.
-/

namespace StepCheck

/-! ### Sinks that count -/

namespace Sink

/-- A sink that fails on a later notification takes the earlier ones. -/
private theorem accepts_failingOn {number : Nat} {reason : Text} (earlier ns : List Notification)
    (h : earlier.length + ns.length < number) :
    (failingOn number reason).Accepts earlier ns := by
  induction ns generalizing earlier with
  | nil => exact trivial
  | cons n ns ih =>
    rw [List.length_cons] at h
    refine ⟨if_neg (by omega), ih (earlier ++ [n]) ?_⟩
    rw [List.length_append, List.length_singleton]
    omega

/-- The sink that fails on the notification of a given number does so wherever there are so many. -/
theorem failsOn_failingOn {number : Nat} (reason : Text) {ns : List Notification} (h : 0 < number)
    (h' : number ≤ ns.length) : (failingOn number reason).FailsOn ns number reason := by
  -- the list is cut before the notification of that number
  have hlt : number - 1 < ns.length := by omega
  have hlength : (ns.take (number - 1)).length + 1 = number := by
    rw [List.length_take_of_le (by omega)]
    omega
  refine ⟨ns.take (number - 1), ns[number - 1], ns.drop (number - 1 + 1), ?_, hlength, ?_, ?_⟩
  · rw [List.getElem_cons_drop, List.take_append_drop]
  · refine accepts_failingOn [] _ ?_
    rw [List.length_nil]
    omega
  · exact if_pos hlength

/-- A sink fails only on a notification that there is. -/
theorem FailsOn.bounds {s : Sink} {ns : List Notification} {number : Nat} {reason : Text}
    (h : s.FailsOn ns number reason) : 0 < number ∧ number ≤ ns.length := by
  obtain ⟨before, n, after, rfl, rfl, -, -⟩ := h
  rw [List.length_append, List.length_cons]
  omega

end Sink

namespace Pipeline

/-! ### Complete runs and runs that are cut short -/

/-- **The announcements of every run**: the stages with the percentages, whatever the content. -/
def announcements : List (Stage × Int) :=
  [(.starting, 0), (.checking .envelope, 10), (.checking .envelope, 25), (.checking .header, 30),
    (.checking .header, 40), (.checking .entities, 45), (.checking .entities, 55),
    (.checking .business, 60), (.checking .business, 70), (.checking .practice, 75),
    (.checking .practice, 85), (.finalizing, 90), (.completed, 100)]

namespace Run

/-- The stages and percentages that have been sent. -/
def announced (run : Run) : List (Stage × Int) := run.sent.map fun n => (n.stage, n.progress)

/-- **A run that is heard to its end**, where every group of checks has its outcomes. -/
structure Complete (run : Run) (groups : CheckGroup → List Outcome) : Prop where
  result : ∃ r, run.result = .ok r ∧ r.results = CheckGroup.all.flatMap groups
  announced : run.announced = announcements
  increasing : run.sent.Pairwise fun n n' => n.progress < n'.progress

/-- **A run that is cut short** by its sink on the notification of a given number, of a pipeline
that would have had the complete run `full`. -/
structure CutAt (run : Run) (number : Nat) (reason : Text) (p : Pipeline)
    (groups : CheckGroup → List Outcome) (full : Run) : Prop where
  /-- The failure of the sink is all that the run gives. -/
  result : run.result = .error (.interrupted (.sinkFailed reason))
  sent : run.sent = full.sent.take number
  announced : run.announced = announcements.take number
  policy : run.pipeline.policy = p.policy
  estimator : run.pipeline.estimator = p.estimator
  isInitialized : run.pipeline.isInitialized = p.isInitialized
  /-- The outcomes of all groups that have been announced twice are there, and no others. -/
  outcomes : run.pipeline.outcomes
    = if number = 1 then p.outcomes else (CheckGroup.all.take ((number - 2) / 2)).flatMap groups
  /-- They come first in the report that there would have been. -/
  isPrefix : number ≠ 1 → ∃ r, full.result = .ok r ∧ run.pipeline.outcomes <+: r.results

end Run

/-! ### Runs over a text -/

theorem announced_series (estimated : Float) :
    (Notification.series estimated).map (fun n => (n.stage, n.progress)) = announcements := rfl

/-- The percentages grow from one notification to the next. -/
theorem increasing_series (estimated : Float) :
    (Notification.series estimated).Pairwise fun n n' => n.progress < n'.progress := by
  -- the estimates play no part, so this is settled on the stages and percentages alone
  have h : announcements.Pairwise fun a b => a.2 < b.2 := by decide
  rw [← announced_series estimated, List.pairwise_map] at h
  exact h

section Text

variable {p : Pipeline} {P : Policy} {seconds : Float} {t : Text} {s : Sink}

/-- A run over a text whose sink takes everything is complete. -/
theorem complete_runText (hP : P.Accepted) (hs : 0 ≤ seconds) (p : Pipeline)
    (h : s.Accepts [] (Notification.series (P.estimator.estimate t))) (filename : Text) :
    (p.runText P P.estimator (some s) (.real seconds) t (.text filename)).Complete
      (CheckGroup.outcomes P (Layout.of t)) := by
  have hpatient : Sink.Patient (some s) (Notification.series (P.estimator.estimate t)) := by
    rintro s' ⟨⟩
    exact h
  rw [runText_of_patient hP hs p hpatient]
  exact {
    result := ⟨_, rfl, rfl⟩
    announced := announced_series _
    increasing := increasing_series _ }

/-- A run over a text whose sink fails is cut short there. -/
theorem cutAt_runText (hP : P.Accepted) (hs : 0 ≤ seconds) (p : Pipeline) {number : Nat}
    {reason : Text} (h : s.FailsOn (Notification.series (P.estimator.estimate t)) number reason)
    (filename : Text) :
    (p.runText P P.estimator (some s) (.real seconds) t (.text filename)).CutAt number reason p
      (CheckGroup.outcomes P (Layout.of t))
      (p.runText P P.estimator (some .patient) (.real seconds) t (.text filename)) := by
  have hpatient : Sink.Patient (some .patient) (Notification.series (P.estimator.estimate t)) := by
    rintro s' ⟨⟩
    exact Sink.accepts_patient [] _
  have hlt : number - 1 < 13 := by
    have hb := h.bounds.2
    change number ≤ 13 at hb
    omega
  -- announcements are counted from 0 in the plan, and from 1 by the sink
  have hleft : RunStep.gathered (CheckGroup.outcomes P (Layout.of t)) p.outcomes
      (RunStep.before (number - 1) RunStep.plan)
      = if number = 1 then p.outcomes
        else (CheckGroup.all.take ((number - 2) / 2)).flatMap
          (CheckGroup.outcomes P (Layout.of t)) := by
    rw [RunStep.gathered_before_plan _ _ hlt]
    have hpos := h.bounds.1
    by_cases h1 : number = 1
    · rw [if_pos h1, if_pos (by omega)]
    · rw [if_neg h1, if_neg (by omega), Nat.sub_sub]
  rw [runText_of_patient hP hs p hpatient, runText_of_failsOn hP hs p h, hleft]
  exact {
    result := rfl
    sent := rfl
    announced := by
      rw [← announced_series (P.estimator.estimate t), ← List.map_take]
      rfl
    policy := rfl
    estimator := rfl
    isInitialized := rfl
    outcomes := rfl
    isPrefix := fun h1 => by
      refine ⟨_, rfl, ?_⟩
      dsimp only
      rw [if_neg h1, Report.of_results]
      exact List.IsPrefix.flatMap (List.take_prefix _ CheckGroup.all) _ }

end Text

end Pipeline

/-! ### Runs after a session -/

namespace Pool

/-- **What becomes of a run**, of any pipeline that a session of acceptable requests has led to. One
that has not been initialised refuses every content, and one that has been refuses contents that are
no text; the pipeline then stays as it is and nothing is sent. A run over a text is complete if its
sink takes everything that a patient sink would hear. If the sink fails on the notification of some
number, the run is cut short there. -/
theorem validate_interrupted {history : List (Text × Request)}
    (ha : ∀ request ∈ history, request.2.Acceptable) {name : Text} {p : Pipeline}
    (hp : after history name = some p) {seconds : Float} (hs : 0 ≤ seconds) (filename : Text) :
    (p.isInitialized = false → ∀ sink content,
      p.validate sink (.real seconds) content (.text filename) = ⟨p, [], .error .notInitialized⟩) ∧
    (p.isInitialized = true →
      (∀ sink content e, content.toText filename = .error e →
        p.validate sink (.real seconds) content (.text filename) = ⟨p, [], .error e⟩) ∧
      ∃ P, p.policy = some P ∧ ∀ t,
        let run s := p.validate (some s) (.real seconds) (.text t) (.text filename)
        let full := run .patient
        (∀ s, s.Accepts [] full.sent → (run s).Complete (CheckGroup.outcomes P (Layout.of t))) ∧
        ∀ s number reason, s.FailsOn full.sent number reason →
          (run s).CutAt number reason p (CheckGroup.outcomes P (Layout.of t)) full) := by
  constructor
  · intro hi sink content
    exact Pipeline.validate_of_not_isInitialized hi
  intro hi
  constructor
  · intro sink content e he
    exact Pipeline.validate_of_toText_eq_error hi he
  · obtain ⟨policy, hgiven, hmade⟩ := madeWith_of_after hp
    have hpolicy := hmade.policy_eq hi
    have hP := accepted_of_given ha hgiven
    refine ⟨policy.getD Policy.bundled, hpolicy, fun t => ?_⟩
    -- what is left are runs over texts, under a policy that is known to be accepted
    have hrun : ∀ s, p.validate (some s) (.real seconds) (.text t) (.text filename)
        = p.runText (policy.getD Policy.bundled) (policy.getD Policy.bundled).estimator (some s)
          (.real seconds) t (.text filename) :=
      fun s => Pipeline.validate_of_toText hi hpolicy rfl
    -- a patient sink hears the whole series, which settles what has been sent in `full`
    have hfull : (p.validate (some .patient) (.real seconds) (.text t) (.text filename)).sent
        = Notification.series ((policy.getD Policy.bundled).estimator.estimate t) := by
      have hpatient : Sink.Patient (some .patient)
          (Notification.series ((policy.getD Policy.bundled).estimator.estimate t)) := by
        rintro s ⟨⟩
        exact Sink.accepts_patient [] _
      rw [hrun, Pipeline.runText_of_patient hP hs p hpatient]
      rfl
    dsimp only
    rw [hfull]
    constructor
    · intro s h
      rw [hrun]
      exact Pipeline.complete_runText hP hs p h filename
    · intro s number reason h
      rw [hrun, hrun]
      exact Pipeline.cutAt_runText hP hs p h filename

/-- The sink that fails on the last notification, when the report has been made already: there is no
report, and all outcomes stay behind. -/
theorem validate_interrupted_last :
    let p := (Pipeline.new none).ready
    after [("a", .create none), ("a", .prepare)] "a" = some p ∧
    let run s := p.validate (some s) (.real 0) (.text "DATA;") (.text "a.ifc")
    (run (.failingOn 13 "full")).CutAt 13 "full" p
      (CheckGroup.outcomes Policy.bundled (Layout.of "DATA;")) (run .patient) := by
  have hp : after [("a", .create none), ("a", .prepare)] "a" = some (Pipeline.new none).ready := by
    simp [after, session, step, Request.answer, put]
  have ha : ∀ request ∈ [(("a" : Text), Request.create none), ("a", .prepare)],
      request.2.Acceptable := by
    simp [Request.Acceptable]
  obtain ⟨-, h⟩ := validate_interrupted ha hp (by decide : (0 : Float) ≤ 0) "a.ifc"
  obtain ⟨-, P, hP, h⟩ := h rfl
  have hpolicy : (Pipeline.new none).ready.policy = some Policy.bundled := rfl
  obtain rfl := Option.some.inj (hpolicy.symm.trans hP)
  obtain ⟨hcomplete, hcut⟩ := h "DATA;"
  beta_reduce at hcomplete hcut
  refine ⟨hp, hcut (.failingOn 13 "full") 13 "full" ?_⟩
  have hpatient := hcomplete .patient
  -- the run gets a name, as otherwise the checks would be computed
  generalize ((Pipeline.new none).ready.validate (some .patient) (.real 0) (.text "DATA;")
    (.text "a.ifc")) = full at hpatient hcut ⊢
  have hannounced := (hpatient (Sink.accepts_patient [] _)).announced
  have hlength := congrArg List.length hannounced
  rw [Pipeline.Run.announced, List.length_map] at hlength
  exact Sink.failsOn_failingOn "full" (by omega) (by rw [hlength]; decide)

end Pool

end StepCheck
