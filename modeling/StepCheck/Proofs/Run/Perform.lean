import StepCheck.Proofs.Run.Delivery
import StepCheck.Run.Pipeline

/-!
# What a run does

A run is a fixed list of small steps, and its sink decides how far it comes. This module says what a
list of steps does under a sink that takes everything and under one that fails on some notification,
by induction over the list, and reads off what is seen of a run over a text.

* `RunStep.notes`, `RunStep.gathered` — what a list of steps announces, and the outcomes it leaves;
* `Sink.Accepts`, `Sink.FailsOn` — sinks that take all notifications of a list, and sinks that fail
  on the one of a given number;
* `RunStep.perform_of_accepts`, `RunStep.perform_of_receive` — the steps carried out under either;
* `Pipeline.runText_of_patient`, `Pipeline.runText_of_failsOn` — a run over a text under either;
* `result_validateContent` — the report of a run that is heard to its end.
-/

namespace StepCheck

/-! ### Sinks -/

namespace Sink

/-- **A sink takes** a list of notifications, one after the other, having received others before. -/
def Accepts (s : Sink) : (earlier : List Notification) → List Notification → Prop
  | _, [] => True
  | earlier, n :: ns => s.receive earlier n = none ∧ s.Accepts (earlier ++ [n]) ns

/-- **A sink fails** for a reason on the notification of a given number in a list, counted from 1,
and has taken those before it. -/
def FailsOn (s : Sink) (ns : List Notification) (number : Nat) (reason : Text) : Prop :=
  ∃ before n after, ns = before ++ n :: after ∧ before.length + 1 = number ∧
    s.Accepts [] before ∧ s.receive before n = some reason

/-- Whoever listens, if anybody does, takes a list of notifications. -/
def Patient (sink : Option Sink) (ns : List Notification) : Prop :=
  ∀ s, sink = some s → s.Accepts [] ns

/-- A sink that never fails takes everything. -/
theorem accepts_patient (earlier ns : List Notification) : patient.Accepts earlier ns := by
  induction ns generalizing earlier with
  | nil => exact trivial
  | cons n ns ih => exact ⟨rfl, ih (earlier ++ [n])⟩

theorem patient_none (ns : List Notification) : Patient none ns := nofun

end Sink

/-! ### Lists of steps -/

namespace RunStep

/-- The notification that a step sends, if it sends one. -/
def note? (estimated : Float) : RunStep → Option Notification
  | announce stage progress => some (.of estimated stage progress)
  | clear => none
  | gather _ => none

/-- **The notifications** of a list of steps, in order. -/
def notes (estimated : Float) (steps : List RunStep) : List Notification :=
  steps.filterMap (note? estimated)

/-- **The outcomes that a list of steps leaves**, from those that have been there before. -/
def gathered (outcomes : CheckGroup → List Outcome) : List Outcome → List RunStep → List Outcome
  | os, [] => os
  | os, announce .. :: steps => gathered outcomes os steps
  | _, clear :: steps => gathered outcomes [] steps
  | os, gather group :: steps => gathered outcomes (os ++ outcomes group) steps

/-- The percentage of a step, if it announces one, is between 0 and 100. -/
def InRange : RunStep → Prop
  | announce _ progress => 0 ≤ progress ∧ progress ≤ 100
  | _ => True

instance : DecidablePred InRange := fun step => by cases step <;> unfold InRange <;> infer_instance

@[simp] theorem notes_nil (estimated : Float) : notes estimated [] = [] := rfl

@[simp] theorem notes_announce (estimated : Float) (stage : Stage) (progress : Int)
    (steps : List RunStep) :
    notes estimated (announce stage progress :: steps)
      = .of estimated stage progress :: notes estimated steps := rfl

@[simp] theorem notes_clear (estimated : Float) (steps : List RunStep) :
    notes estimated (clear :: steps) = notes estimated steps := rfl

@[simp] theorem notes_gather (estimated : Float) (group : CheckGroup) (steps : List RunStep) :
    notes estimated (gather group :: steps) = notes estimated steps := rfl

section Perform

variable {sink : Option Sink} {s : Sink} {estimated : Float} {outcomes : CheckGroup → List Outcome}

/-- A stage announced to a sink: the notification is sent, and the sink may fail on it. -/
theorem send_eq {stage : Stage} {progress : Int} (he : 0 ≤ estimated)
    (hr : (announce stage progress).InRange) (trace : Trace) :
    send (some s) estimated trace stage progress
      = ({ trace with sent := trace.sent ++ [.of estimated stage progress] },
          (s.receive trace.sent (.of estimated stage progress)).map Interruption.sinkFailed) := by
  unfold send
  rw [Notification.announce_eq_ok stage he hr.1 hr.2]

/-- **Steps in two parts**: the second is carried out if the first has not been interrupted. -/
theorem perform_append (trace : Trace) (first second : List RunStep) :
    perform sink estimated outcomes trace (first ++ second)
      = match perform sink estimated outcomes trace first with
        | (trace, none) => perform sink estimated outcomes trace second
        | interrupted => interrupted := by
  -- on the first part, whatever has come before: an interruption ends both sides at once
  induction first generalizing trace with
  | nil => rfl
  | cons step steps ih =>
    cases step with
    | announce stage progress =>
      simp only [List.cons_append, perform]
      rcases send sink estimated trace stage progress with ⟨trace', _ | i⟩
      · exact ih trace'
      · rfl
    | clear => exact ih _
    | gather group => exact ih _

/-- Where nobody listens, all steps are carried out. -/
theorem perform_none (trace : Trace) (steps : List RunStep) :
    perform none estimated outcomes trace steps
      = (⟨trace.sent, gathered outcomes trace.outcomes steps⟩, none) := by
  induction steps generalizing trace with
  | nil => rfl
  | cons step steps ih =>
    cases step with
    | announce stage progress => exact ih trace
    | clear => exact ih _
    | gather group => exact ih _

/-- **A sink that takes all notifications** lets all steps be carried out. -/
theorem perform_of_accepts {steps : List RunStep} (he : 0 ≤ estimated)
    (hr : ∀ step ∈ steps, step.InRange) {trace : Trace}
    (hs : s.Accepts trace.sent (notes estimated steps)) :
    perform (some s) estimated outcomes trace steps
      = (⟨trace.sent ++ notes estimated steps, gathered outcomes trace.outcomes steps⟩, none) := by
  -- on the steps; the invariant is that the sink has received just what has been sent
  induction steps generalizing trace with
  | nil => rw [notes_nil, List.append_nil]; rfl
  | cons step steps ih =>
    have hr' := fun x hx => hr x (List.mem_cons_of_mem step hx)
    cases step with
    | announce stage progress =>
      obtain ⟨hn, hs⟩ := hs
      have hsend := send_eq (s := s) he (hr _ List.mem_cons_self) trace
      rw [hn] at hsend
      simp only [perform, hsend, Option.map_none]
      rw [ih hr' hs, notes_announce, List.append_assoc]
      rfl
    | clear =>
      rw [perform]
      exact ih hr' hs
    | gather group =>
      rw [perform]
      exact ih hr' hs

/-- **A sink that fails on an announcement** ends the run there: the notification has been sent, and
the outcomes are those of the steps before it. -/
theorem perform_of_receive {before after : List RunStep} {stage : Stage} {progress : Int}
    {reason : Text} (he : 0 ≤ estimated)
    (hr : ∀ step ∈ before ++ announce stage progress :: after, step.InRange) {trace : Trace}
    (hs : s.Accepts trace.sent (notes estimated before))
    (hf : s.receive (trace.sent ++ notes estimated before) (.of estimated stage progress)
      = some reason) :
    perform (some s) estimated outcomes trace (before ++ announce stage progress :: after)
      = (⟨trace.sent ++ notes estimated before ++ [.of estimated stage progress],
          gathered outcomes trace.outcomes before⟩, some (.sinkFailed reason)) := by
  have hbefore : ∀ step ∈ before, step.InRange :=
    fun x hx => hr x (List.mem_append_left _ hx)
  have hhere : (announce stage progress).InRange :=
    hr _ (List.mem_append_right before List.mem_cons_self)
  rw [perform_append, perform_of_accepts he hbefore hs]
  simp only [perform, send_eq he hhere, hf, Option.map_some]

end Perform

/-! ### The announcement of a given number -/

/-- The steps before the announcement of a given number, counted from 0. -/
def before : Nat → List RunStep → List RunStep
  | _, [] => []
  | 0, announce .. :: _ => []
  | number + 1, announce stage progress :: steps =>
    announce stage progress :: before number steps
  | number, clear :: steps => clear :: before number steps
  | number, gather group :: steps => gather group :: before number steps

/-- What comes before a notification is found by the number of those that are sent earlier. -/
theorem before_append (estimated : Float) (first after : List RunStep) (stage : Stage)
    (progress : Int) :
    before (notes estimated first).length (first ++ announce stage progress :: after) = first := by
  induction first with
  | nil => rfl
  | cons step steps ih =>
    cases step with
    | announce => exact congrArg _ ih
    | clear =>
      rw [notes_clear, List.cons_append, before]
      exact congrArg _ ih
    | gather group =>
      rw [notes_gather, List.cons_append, before]
      exact congrArg _ ih

/-- Where the notifications of steps are cut, the steps are cut by an announcement. -/
theorem exists_of_notes_eq {estimated : Float} {steps : List RunStep}
    {first : List Notification} {n : Notification} {rest : List Notification}
    (h : notes estimated steps = first ++ n :: rest) :
    ∃ xs stage progress ys, steps = xs ++ announce stage progress :: ys ∧
      notes estimated xs = first ∧ n = .of estimated stage progress := by
  -- `xs` are the steps behind `first`, and `us` those up to the next announcement, which send
  -- nothing and so belong to `xs` as well
  obtain ⟨xs, zs, rfl, hxs, hzs⟩ := List.filterMap_eq_append_iff.mp h
  obtain ⟨us, step, ys, rfl, hus, hstep, -⟩ := List.filterMap_eq_cons_iff.mp hzs
  cases step with
  | announce stage progress =>
    refine ⟨xs ++ us, stage, progress, ys, (List.append_assoc ..).symm, ?_, ?_⟩
    · unfold notes
      rw [List.filterMap_append, hxs, List.filterMap_eq_nil_iff.mpr hus, List.append_nil]
    · exact (Option.some.inj hstep).symm
  | clear => cases hstep
  | gather group => cases hstep

/-! ### The steps of a whole run -/

/-- **The steps of a whole run**, the report being made before the last. -/
def plan : List RunStep := schedule ++ closing

/-- All percentages of the plan are between 0 and 100. -/
theorem inRange_plan : ∀ step ∈ plan, step.InRange := by decide

/-- **All groups of checks** are gathered, each once and in their order, and what was there before
is gone. -/
theorem gathered_plan (outcomes : CheckGroup → List Outcome) (old : List Outcome) :
    gathered outcomes old plan = CheckGroup.all.flatMap outcomes := by
  simp [plan, schedule, closing, CheckGroup.all, ofGroup, gathered]

/-- **What is left behind** at the announcement of a given number, counted from 0: the outcomes of
an earlier run at the first, and then those of the groups that have been announced twice. -/
theorem gathered_before_plan (outcomes : CheckGroup → List Outcome) (old : List Outcome)
    {number : Nat} (h : number < 13) :
    gathered outcomes old (before number plan)
      = if number = 0 then old else (CheckGroup.all.take ((number - 1) / 2)).flatMap outcomes := by
  -- `before` counts down, so each of the thirteen numbers has to be there as a numeral
  interval_cases number <;>
    simp [before, plan, schedule, closing, CheckGroup.all, ofGroup, gathered]

/-- The last step adds no outcomes. -/
theorem outcomes_perform_closing (sink : Option Sink) (estimated : Float)
    (outcomes : CheckGroup → List Outcome) (trace : Trace) :
    (perform sink estimated outcomes trace closing).1.outcomes = trace.outcomes := by
  have hsend : ∀ stage progress,
      (send sink estimated trace stage progress).1.outcomes = trace.outcomes := by
    intro stage progress
    unfold send
    cases sink with
    | none => rfl
    | some s =>
      dsimp only
      split <;> rfl
  -- only the trace is asked for, and it is the one that the announcement leaves either way
  unfold closing
  simp only [perform]
  rw [← hsend .completed 100]
  split
  · next h => rw [h]
  · rfl

end RunStep

/-- **The notifications of a whole run** under an estimate. -/
def Notification.series (estimated : Float) : List Notification :=
  RunStep.notes estimated RunStep.plan

/-! ### Runs -/

namespace Pipeline

section Validate

variable {p : Pipeline} {P : Policy} {sink : Option Sink} {elapsed filename : Datum}
  {content : Content} {t : Text}

/-- A pipeline that has not been initialised refuses whatever it is given. -/
theorem validate_of_not_isInitialized (hi : p.isInitialized = false) :
    p.validate sink elapsed content filename = p.refusedRun .notInitialized := by
  unfold validate
  rw [dif_neg (by rw [hi]; exact Bool.false_ne_true)]

/-- A content that is no text is refused. -/
theorem validate_of_toText_eq_error {e : RunError} (hi : p.isInitialized)
    (ht : content.toText filename.shown = .error e) :
    p.validate sink elapsed content filename = p.refusedRun e := by
  unfold validate
  rw [dif_pos hi, ht]

/-- A content that is a text is checked under the policy of the pipeline and with its estimates. -/
theorem validate_of_toText (hi : p.isInitialized) (hP : p.policy = some P)
    (ht : content.toText filename.shown = .ok t) :
    p.validate sink elapsed content filename
      = p.runText P P.estimator sink elapsed t filename := by
  -- the estimates are those of the policy, since no pipeline can be built otherwise
  have hE : p.estimator = some P.estimator := by
    obtain ⟨Q, hQ, hE⟩ := p.settled hi
    rw [hP] at hQ
    cases hQ
    exact hE
  unfold validate
  rw [dif_pos hi, ht]
  dsimp only
  congr
  · exact Option.get_of_eq_some _ hP
  · exact Option.get_of_eq_some _ hE

end Validate

section RunText

variable {P : Policy} {seconds : Float}

/-- **A run over a text in one piece**: nothing but the sink interrupts it. -/
theorem runText_eq (hP : P.Accepted) (hs : 0 ≤ seconds) (p : Pipeline) (sink : Option Sink)
    (t filename : Text) :
    p.runText P P.estimator sink (.real seconds) t (.text filename)
      = let done := RunStep.perform sink (P.estimator.estimate t)
          (CheckGroup.outcomes P (Layout.of t)) ⟨[], p.outcomes⟩ RunStep.plan
        ⟨{ p with outcomes := done.1.outcomes }, done.1.sent,
          match done.2 with
          | some i => .error (.interrupted i)
          | none => .ok (.of filename seconds (P.estimator.estimate t) done.1.outcomes)⟩ := by
  have he := hP.sound.zero_le_estimate t
  unfold runText RunStep.plan
  dsimp only
  rw [RunStep.perform_append]
  -- the report stands between the schedule and the last announcement; it is never refused
  rcases RunStep.perform sink (P.estimator.estimate t) (CheckGroup.outcomes P (Layout.of t))
    ⟨[], p.outcomes⟩ RunStep.schedule with ⟨trace, _ | i⟩
  · dsimp only
    rw [Report.assemble_eq_ok trace.outcomes hs he]
    dsimp only
    -- the last announcement adds nothing, so the outcomes of the report are those at the end
    have hclosing := RunStep.outcomes_perform_closing sink (P.estimator.estimate t)
      (CheckGroup.outcomes P (Layout.of t)) trace
    generalize RunStep.perform sink (P.estimator.estimate t) (CheckGroup.outcomes P (Layout.of t))
      trace RunStep.closing = done at hclosing ⊢
    rcases done with ⟨trace', _ | i⟩
    · dsimp only at hclosing ⊢
      rw [hclosing]
    · rfl
  · rfl

/-- **A run over a text that is heard to its end** gives the report with the outcomes of all groups
of checks, in their order, whatever outcomes were there before. -/
theorem runText_of_patient (hP : P.Accepted) (hs : 0 ≤ seconds) (p : Pipeline)
    {sink : Option Sink} {t : Text}
    (h : Sink.Patient sink (Notification.series (P.estimator.estimate t))) (filename : Text) :
    p.runText P P.estimator sink (.real seconds) t (.text filename)
      = ⟨{ p with outcomes := CheckGroup.all.flatMap (CheckGroup.outcomes P (Layout.of t)) },
          if sink.isSome then Notification.series (P.estimator.estimate t) else [],
          .ok (.of filename seconds (P.estimator.estimate t)
            (CheckGroup.all.flatMap (CheckGroup.outcomes P (Layout.of t))))⟩ := by
  have he := hP.sound.zero_le_estimate t
  rw [runText_eq hP hs]
  -- nobody listens, or the one who does takes everything
  cases sink with
  | none =>
    rw [RunStep.perform_none]
    dsimp only
    rw [RunStep.gathered_plan]
    rfl
  | some s =>
    rw [RunStep.perform_of_accepts he RunStep.inRange_plan (h s rfl)]
    dsimp only
    rw [RunStep.gathered_plan]
    rfl

/-- **A run over a text whose sink fails** on the notification of some number: it has been sent with
those before it, and what is left behind depends on the number. -/
theorem runText_of_failsOn (hP : P.Accepted) (hs : 0 ≤ seconds) (p : Pipeline) {s : Sink} {t : Text}
    {number : Nat} {reason : Text}
    (h : s.FailsOn (Notification.series (P.estimator.estimate t)) number reason)
    (filename : Text) :
    p.runText P P.estimator (some s) (.real seconds) t (.text filename)
      = ⟨{ p with
            outcomes := RunStep.gathered (CheckGroup.outcomes P (Layout.of t)) p.outcomes
              (RunStep.before (number - 1) RunStep.plan) },
          (Notification.series (P.estimator.estimate t)).take number,
          .error (.interrupted (.sinkFailed reason))⟩ := by
  have he := hP.sound.zero_le_estimate t
  obtain ⟨before, n, after, hseries, rfl, hb, hf⟩ := h
  -- the notification on which the sink fails is that of a step, and cuts the plan there
  obtain ⟨xs, stage, progress, ys, hplan, rfl, rfl⟩ := RunStep.exists_of_notes_eq hseries
  have hrange : ∀ step ∈ xs ++ .announce stage progress :: ys, step.InRange :=
    hplan ▸ RunStep.inRange_plan
  rw [runText_eq hP hs, hseries, Nat.add_sub_cancel, hplan, RunStep.before_append,
    RunStep.perform_of_receive he hrange hb hf, List.take_length_add_append]
  rfl

end RunText

end Pipeline

/-- **The report of a run** over a text that is heard to its end. -/
theorem result_validateContent {P : Policy} (hP : P.Accepted) {seconds : Float} (hs : 0 ≤ seconds)
    {content : Content} {filename t : Text} (ht : content.toText filename = .ok t)
    {sink : Option Sink}
    (h : Sink.Patient sink (Notification.series (P.estimator.estimate t))) :
    (validateContent (some P) sink (.real seconds) content (.text filename)).result
      = .ok (.of filename seconds (P.estimator.estimate t)
          (CheckGroup.all.flatMap (CheckGroup.outcomes P (Layout.of t)))) := by
  have hinit : (Pipeline.new (some P)).ready.isInitialized := rfl
  have hpolicy : (Pipeline.new (some P)).ready.policy = some P := rfl
  have hshown : content.toText (Datum.text filename).shown = .ok t := by
    rw [Datum.shown_text]
    exact ht
  unfold validateContent
  rw [Pipeline.validate_of_toText hinit hpolicy hshown, Pipeline.runText_of_patient hP hs _ h]

end StepCheck
