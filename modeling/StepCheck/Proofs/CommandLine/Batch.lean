import StepCheck.CommandLine.Validate
import StepCheck.Proofs.CommandLine.Leaves
import StepCheck.Proofs.Run.Perform
import StepCheck.Proofs.Policy.Accepted

/-!
# Batches of files

A call that validates files is told here in two ways: what its answers must be if it comes that far,
and what it leaves behind. For both, the files are divided beforehand into those that can be read
and those that cannot, and every file that can be read has its report, which depends on nothing but
the policy, the file, and the time that its validation takes.

* `Validation.readable`, `Validation.unreadable` — the files that can be read, and the others;
* `Source.report` — the report of a file that can be read;
* `Validation.gather`, `Validation.perform` — all that is done before the verdict, with
  `Validation.run_eq`;
* `Validation.answers_perform` — the files and reports on which the verdict is given.
-/

namespace StepCheck

/-! ### Files and their reports -/

/-- A report has only been made of a time that is not negative. -/
theorem Report.zero_le_of_assemble {filename : Text} {seconds estimated : Float}
    {results : List Outcome} {r : Report}
    (h : assemble (.text filename) (.real seconds) (.real estimated) results = .ok r) :
    0 ≤ seconds := by
  unfold assemble at h
  dsimp only at h
  cases htaken : Intake.both (Intake.under (.field "filename") (Intake.text (.text filename)))
      (Intake.both (Intake.under (.field "validation_time") (Intake.nonNegative (.real seconds)))
        (Intake.under (.field "estimated_time") (Intake.nonNegative (.real estimated)))) with
  | error e =>
    rw [htaken] at h
    cases h
  | ok taken =>
    -- the report exists, so that the time has passed its check
    have hseconds := (Intake.both_eq_ok (Intake.both_eq_ok htaken).2).1
    by_contra hnegative
    have hfault : Intake.nonNegative (.real seconds) = Intake.fault (.below "0") := if_neg hnegative
    rw [hfault] at hseconds
    cases hseconds

/-- **The policy of a path**, or the bundled one. -/
def Surroundings.policy? (s : Surroundings) : Option Path → Option Policy
  | none => some Policy.bundled
  | some path => (Yaml.load s.reader Policy.intake (s.files.bytes? path)).toOption

/-- The value of a file has been taken in from a datum. -/
theorem Yaml.exists_of_load_eq_ok {α : Type} {reader : Reader} {intake : Intake α}
    {bytes : Option (List UInt8)} {a : α} (h : Yaml.load reader intake bytes = .ok a) :
    ∃ d, intake d = .ok a := by
  cases bytes with
  | none => cases h
  | some bytes =>
    unfold Yaml.load at h
    dsimp only at h
    -- every other branch ends in a failure
    split at h
    · cases h
    · split at h
      · cases h
      · cases h
      · cases h
      · split at h
        · next ha =>
          cases h
          exact ⟨_, ha⟩
        · cases h

/-- A policy that is used from a file has been loaded. -/
theorem Surroundings.exists_of_policy? {s : Surroundings} {path : Path} {P : Policy}
    (h : s.policy? (some path) = some P) :
    ∃ bytes, s.files.read path = .ok bytes ∧
      Yaml.load s.reader Policy.intake (some bytes) = .ok P := by
  change (Yaml.load s.reader Policy.intake (s.files.read path).toOption).toOption = some P at h
  cases hread : s.files.read path with
  | error problem =>
    rw [hread] at h
    cases h
  | ok bytes =>
    rw [hread] at h
    change (Yaml.load s.reader Policy.intake (some bytes)).toOption = some P at h
    refine ⟨bytes, rfl, ?_⟩
    cases hload : Yaml.load s.reader Policy.intake (some bytes) with
    | error e =>
      rw [hload] at h
      cases h
    | ok Q =>
      rw [hload] at h
      cases h
      rfl

/-- A policy that is used has been accepted. -/
theorem Surroundings.accepted_of_policy? {s : Surroundings} {path : Option Path} {P : Policy}
    (h : s.policy? path = some P) : P.Accepted := by
  cases path with
  | none =>
    cases h
    exact Policy.accepted_bundled
  | some path =>
    obtain ⟨bytes, -, hload⟩ := exists_of_policy? h
    exact Yaml.exists_of_load_eq_ok hload

namespace Validation

/-- The file of a path with its content, if it can be read. -/
def source? (s : Surroundings) (path : Path) : Option Source :=
  (s.files.bytes? path).map fun bytes => ⟨path, Session.textOf bytes⟩

/-- **The files that can be read**, in the order in which they are given. -/
def readable (s : Surroundings) (v : Validation) : List Source := v.files.filterMap (source? s)

/-- **The paths of files that cannot be read**, in the same order. -/
def unreadable (s : Surroundings) (v : Validation) : List Path :=
  v.files.filter fun path => (source? s path).isNone

/-- Every file is one or the other. -/
theorem length_readable_add (s : Surroundings) (v : Validation) :
    (v.readable s).length + (v.unreadable s).length = v.files.length := by
  unfold readable unreadable
  -- each file is on one of the two sides, as its bytes are there or not
  induction v.files with
  | nil => rfl
  | cons path paths ih =>
    cases h : source? s path with
    | none =>
      rw [List.filterMap_cons_none h, List.filter_cons_of_pos (by rw [h]; rfl), List.length_cons,
        List.length_cons, ← ih]
      omega
    | some f =>
      rw [List.filterMap_cons_some h, List.filter_cons_of_neg (by simp [h]), List.length_cons,
        List.length_cons, ← ih]
      omega

/-- **The report of a file**: it has the name and the outcomes of the file, and the two times. -/
def Source.report (s : Surroundings) (P : Policy) (f : Source) : Report :=
  .of f.path.name (s.elapsed f.path) (P.estimator.estimate f.content)
    (CheckGroup.all.flatMap (CheckGroup.outcomes P (Layout.of f.content)))

/-! ### What is done before the verdict -/

/-- The rows about files that are done are printed if they are asked for. -/
def announce (s : Surroundings) (v : Validation) (sources : List Source) : Session Unit :=
  if v.showsProgress then showProgress s sources else pure ()

/-- The reports are shown one after the other. -/
def showReports (s : Surroundings) (v : Validation) (sources : List Source) (rs : List Report) :
    Session Unit :=
  (sources.zip rs).forM fun (f, r) => v.showReport s f r

/-- If several files have been asked for, they are summed up. -/
def sumUp (s : Surroundings) (v : Validation) (unreadable : Nat) (rs : List Report) :
    Session Unit :=
  if 1 < v.files.length then Session.printing (Report.displayBatch s.terminal rs unreadable)
  else pure ()

/-- The reports are written if that is asked for and there are any. -/
def exportReports (s : Surroundings) (v : Validation) (rs : List Report) : Session Unit :=
  match v.exportPath with
  | some path => if !rs.isEmpty then v.writeReports s path rs else pure ()
  | none => pure ()

/-- **Files are read, validated and shown**, with the number of those that could not be read, and
the reports of the others. -/
def gather (s : Surroundings) (logger : Logger) (v : Validation) :
    Session (Nat × List Report) := do
  let policy ← Session.policy s logger v.policy
  let sources ← v.sources s logger
  let unreadable := v.files.length - sources.length
  Session.say s "\n[bold cyan]IFC Validation[/bold cyan]"
  v.announce s sources
  let reports ← sources.mapM (reportOf s logger policy)
  v.showReports s sources reports
  v.sumUp s unreadable reports
  return (unreadable, reports)

/-- **All that is done before the verdict.** -/
def perform (s : Surroundings) (logger : Logger) (v : Validation) :
    Session (Nat × List Report) := do
  let (unreadable, reports) ← v.gather s logger
  v.exportReports s reports
  return (unreadable, reports)

/-- What is done behind something that may be left out. -/
theorem guard_bind {c : Prop} [Decidable c] (p q : Session Unit) :
    ((if c then p else pure ()) >>= fun _ => q) = if c then p >>= fun _ => q else q := by
  split
  · rfl
  · exact pure_bind _ _

/-- **The verdict comes last.** -/
theorem run_eq (s : Surroundings) (logger : Logger) (v : Validation) :
    v.run s logger = v.perform s logger >>= fun done => v.conclude s done.1 done.2 := by
  unfold run perform gather announce showReports sumUp exportReports
  -- what may be left out stands before the rest on one side, and with it on the other
  cases v.exportPath with
  | none => simp only [bind_assoc, pure_bind, guard_bind]
  | some path => simp only [bind_assoc, pure_bind, guard_bind]

/-! ### Answers -/

/-- A policy that is used has been loaded. -/
theorem answers_usePolicy (s : Surroundings) (logger : Logger) (path : Path)
    (loaded : Except Yaml.FileFailure Policy) :
    Answers (Session.usePolicy s logger path loaded) fun P => loaded = .ok P := by
  unfold Session.usePolicy
  cases loaded with
  | ok P => exact (Answers.trivial _).bind fun _ _ => Answers.pure rfl
  | error e =>
    -- told or not, a failure ends the call
    dsimp only
    split
    · exact (Answers.trivial _).bind fun _ _ => Answers.throw _
    · exact Answers.throw _

/-- The policy that is read is that of the path. -/
theorem answers_policy (s : Surroundings) (logger : Logger) (path : Option Path) :
    Answers (Session.policy s logger path) fun P => s.policy? path = some P := by
  cases path with
  | none => exact (Answers.trivial _).bind fun _ _ => Answers.pure rfl
  | some path =>
    -- the bytes are those of the file, or there are none; both ways they are loaded and used
    have hload : ∀ bytes, s.files.bytes? path = bytes →
        Answers (Session.usePolicy s logger path (Yaml.load s.reader Policy.intake bytes))
          fun P => s.policy? (some path) = some P := by
      rintro _ rfl trail P trail' hrun
      change (Yaml.load s.reader Policy.intake (s.files.bytes? path)).toOption = some P
      rw [answers_usePolicy s logger path _ trail P trail' hrun]
      rfl
    unfold Files.bytes? at hload
    unfold Session.policy
    dsimp only
    cases hread : s.files.read path with
    | ok bytes =>
      rw [hread] at hload
      exact hload (some bytes) rfl
    | error problem =>
      rw [hread] at hload
      dsimp only
      split
      · exact hload none rfl
      · exact Answers.throw _

/-- What is read of a path is the content of its file. -/
theorem answers_content (s : Surroundings) (logger : Logger) (path : Path) :
    Answers (Session.content s logger true path) fun content =>
      content.map (Source.mk path) = source? s path := by
  unfold Session.content source? Files.bytes?
  cases s.files.read path with
  | ok bytes => exact (Answers.trivial _).bind fun _ _ => Answers.pure rfl
  | error problem =>
    exact (Answers.trivial _).bind fun _ _ => (Answers.trivial _).bind fun _ _ => Answers.pure rfl

/-- The files that are read are those that can be read. -/
theorem answers_sources (s : Surroundings) (logger : Logger) (v : Validation) :
    Answers (v.sources s logger) (· = v.readable s) := by
  have hread : Answers (v.files.mapM fun path => do
      return (← Session.content s logger true path).map (Source.mk path))
      (· = v.files.map (source? s)) :=
    Answers.mapM fun path _ => (answers_content s logger path).bind fun _ h => Answers.pure h
  refine hread.bind fun read h => Answers.pure ?_
  rw [h, readable, List.filterMap_map]
  rfl

/-- A run that has a report has not taken less than no time. -/
theorem zero_le_of_runText {p : Pipeline} {P : Policy} {estimator : Coefficients Float}
    {sink : Option Sink} {seconds : Float} {t filename : Text} {r : Report}
    (h : (p.runText P estimator sink (.real seconds) t (.text filename)).result = .ok r) :
    0 ≤ seconds := by
  unfold Pipeline.runText at h
  dsimp only at h
  split at h
  · cases h
  · split at h
    · cases h
    · next hassemble => exact Report.zero_le_of_assemble hassemble

section Report

variable {s : Surroundings} {P : Policy}

/-- The run over a file that has been read, with the progress shown. -/
def runOf (s : Surroundings) (P : Policy) (f : Source) : Pipeline.Run :=
  (Pipeline.new (some P)).ready.validate (some Sink.patient) (.real (s.elapsed f.path))
    (.text f.content) (.text f.path.name)

theorem runOf_eq (s : Surroundings) (P : Policy) (f : Source) :
    runOf s P f = (Pipeline.new (some P)).ready.runText P P.estimator (some Sink.patient)
      (.real (s.elapsed f.path)) f.content (.text f.path.name) :=
  Pipeline.validate_of_toText rfl rfl rfl

/-- **The run over a file** gives its report. -/
theorem result_runOf (hP : P.Accepted) {f : Source} (hs : 0 ≤ s.elapsed f.path) :
    (runOf s P f).result = .ok (f.report s P) := by
  rw [runOf_eq, Pipeline.runText_of_patient hP hs]
  · rfl
  · rintro _ ⟨⟩
    exact Sink.accepts_patient _ _

/-- The report that a call makes of a file is the report of the file. -/
theorem answers_reportOf (hP : P.Accepted) (logger : Logger) (f : Source) :
    Answers (reportOf s logger P f) (· = f.report s P) := by
  unfold reportOf
  dsimp only
  rw [← runOf]
  split
  · next r hr =>
    refine (Answers.trivial _).bind fun _ _ => Answers.pure ?_
    -- there would be no report of a negative time
    have hs : 0 ≤ s.elapsed f.path := by
      rw [runOf_eq] at hr
      exact zero_le_of_runText hr
    rw [result_runOf hP hs] at hr
    exact (Except.ok.inj hr).symm
  · exact Answers.throw _
  · exact Answers.throw _
  · exact Answers.throw _

/-- **What the verdict is given on**: the number of files that cannot be read, and the reports of
all others, in the order in which the files are given. -/
theorem answers_gather (s : Surroundings) (logger : Logger) (v : Validation) :
    Answers (v.gather s logger) fun answer => ∃ P, s.policy? v.policy = some P ∧
      answer = ((v.unreadable s).length, (v.readable s).map (Source.report s P)) := by
  unfold gather
  refine (answers_policy s logger v.policy).bind fun P hP => ?_
  have haccepted := Surroundings.accepted_of_policy? hP
  refine (answers_sources s logger v).bind fun sources hsources => ?_
  refine (Answers.trivial _).bind fun _ _ => (Answers.trivial _).bind fun _ _ => ?_
  refine (Answers.mapM fun f _ => answers_reportOf haccepted logger f).bind fun rs hrs => ?_
  -- what is shown has no answer that matters
  refine (Answers.trivial _).bind fun _ _ => (Answers.trivial _).bind fun _ _ => ?_
  refine Answers.pure ⟨P, hP, ?_⟩
  have hlength := v.length_readable_add s
  rw [hrs, hsources]
  congr 1
  omega

theorem answers_perform (s : Surroundings) (logger : Logger) (v : Validation) :
    Answers (v.perform s logger) fun answer => ∃ P, s.policy? v.policy = some P ∧
      answer = ((v.unreadable s).length, (v.readable s).map (Source.report s P)) :=
  (answers_gather s logger v).bind fun _ hanswer => (Answers.trivial _).bind fun _ _ =>
    Answers.pure hanswer

end Report

end Validation

end StepCheck
