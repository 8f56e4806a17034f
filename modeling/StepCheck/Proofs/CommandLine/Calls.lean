import StepCheck.CommandLine.Program
import StepCheck.Proofs.CommandLine.Leaves

/-!
# Calls that validate files

The words of a call are looked at before anything is done: they may be no call at all, ask for help,
or give a parameter a wrong value. A call that passes does what its command does, with parameters
that are all right.

The paths of files are looked at as well. What is not there is let through, to be told of later, but
a folder among the files, or a file that may not be read, ends the call there.

* `Call.accepted?` — the parameters of a call that passes;
* `Call.IsRefused` — the words that do not pass as paths of files;
* `Program.Validates` — the calls that validate files, with what they ask for;
* `Program.Validates.session_eq` — such a call does what the command does;
* `Program.Validates.exists_format` — its reports can be exported;
* `Program.Requests` — the calls that ask for files to be validated, which pass unless some path
  does not (`Requests.validates`, `Requests.run_of_isRefused`).
-/

namespace StepCheck

namespace Call

variable {s : Surroundings} {c : CommandSpec} {words : List Text} {g : Given}

/-- **The parameters of a call** if nothing is wrong with its words and they ask for no help. -/
def accepted? (s : Surroundings) (c : CommandSpec) (words : List Text) : Option Given :=
  match c.read words with
  | .error _ => none
  | .ok g => if g.has CommandSpec.helpOption.name ∨ (problem? s c g).isSome then none else some g

/-- A call is accepted if it can be read, asks for no help and has no problem. -/
theorem accepted?_eq_some (h : accepted? s c words = some g) :
    c.read words = .ok g ∧ g.has CommandSpec.helpOption.name = false ∧ problem? s c g = none := by
  unfold accepted? at h
  split at h
  · cases h
  · next g' hread =>
    split at h
    · cases h
    · next hnone =>
      cases h
      rw [not_or, Bool.not_eq_true, Option.not_isSome_iff_eq_none] at hnone
      exact ⟨hread, hnone⟩

/-- Such a call goes on with its parameters. -/
theorem begin_eq (h : accepted? s c words = some g) (commands : List (Text × CommandSpec)) :
    begin s c commands words = pure g := by
  obtain ⟨hread, hhelp, hproblem⟩ := accepted?_eq_some h
  unfold begin
  rw [hread]
  dsimp only
  rw [hhelp, hproblem]
  rfl

/-- Nothing is wrong with the value of any parameter. -/
theorem valueProblem?_eq_none (h : problem? s c g = none) {o : OptionSpec}
    (ho : c.option? o.name = some o) (hfiles : o.name ≠ Command.files)
    (horder : o.name ∈ c.order g) {t : Text} (ht : value? s g o.name = some t) :
    valueProblem? s o t = none := by
  unfold problem? at h
  have hfirst := (Option.or_eq_none_iff.mp h).1
  have hparameter := List.findSome?_eq_none_iff.mp hfirst o.name horder
  unfold parameterProblem? at hparameter
  rw [if_neg hfiles, ho, ht] at hparameter
  exact hparameter

/-- **A word that does not pass** as the path of a file: a folder stands there, or a file that may
not be read. -/
def IsRefused (s : Surroundings) (t : Text) : Prop :=
  t ≠ [] ∧ (s.files (Path.of t) = .folder ∨ s.files (Path.of t) = .locked)

instance (s : Surroundings) (t : Text) : Decidable (IsRefused s t) :=
  inferInstanceAs (Decidable (_ ∧ _))

/-- A path has no problem just if it is not refused. -/
theorem pathProblem?_eq_none_iff {parameter t : Text} :
    pathProblem? s parameter t = none ↔ ¬ IsRefused s t := by
  unfold pathProblem? IsRefused
  cases t with
  | nil => exact iff_of_true rfl fun h => h.1 rfl
  | cons c t =>
    rw [List.isEmpty_cons, if_neg Bool.false_ne_true]
    cases s.files (Path.of (c :: t)) <;> simp

/-- Of files that are given the first word that does not pass is the problem, if there is one. -/
theorem filesProblem?_eq_none_iff (hfiles : g.arguments ≠ []) :
    filesProblem? s g = none ↔ ∀ t ∈ g.arguments, ¬ IsRefused s t := by
  unfold filesProblem?
  rw [if_neg (by rwa [List.isEmpty_iff]), List.findSome?_eq_none_iff]
  simp only [pathProblem?_eq_none_iff]

end Call

namespace Program

variable {s : Surroundings} {words : List Text} {logger : Logger} {g : Given}

/-- **A call that validates files**: the program and the command accept its words, and these are its
parameters, with the logger that it sets up. -/
def Validates (s : Surroundings) (words : List Text) (logger : Logger) (g : Given) : Prop :=
  ∃ before rest, Call.accepted? s Command.program words = some before ∧
    before.arguments = Command.validate.name :: rest ∧
    Call.accepted? s Command.validate.spec rest = some g ∧
    logger = (({} : Logger).configure (level s before)).1

/-- The command is run with the words behind its name. -/
theorem session_eq_of_accepted? {before : Given} {rest : List Text}
    (hbefore : Call.accepted? s Command.program words = some before)
    (hrest : before.arguments = Command.validate.name :: rest) :
    session s words
      = runCommand s (({} : Logger).configure (level s before)).1 .validate rest := by
  have hwords : words.isEmpty = false := by
    cases words with
    | nil =>
      obtain ⟨hread, -, -⟩ := Call.accepted?_eq_some hbefore
      cases hread
      cases hrest
    | cons word words => rfl
  unfold session
  rw [hwords, Call.begin_eq hbefore, if_neg Bool.false_ne_true, pure_bind, hrest]
  rfl

/-- **Such a call** does what the command does. -/
theorem Validates.session_eq (h : Validates s words logger g) :
    session s words = Validation.run s logger (Validation.ofGiven s g) := by
  obtain ⟨before, rest, hbefore, hrest, hg, rfl⟩ := h
  rw [session_eq_of_accepted? hbefore hrest]
  unfold runCommand
  rw [Call.begin_eq hg]
  rfl

/-- How a call ends, and what it leaves behind. -/
theorem run_eq_of_session {e : Ending} {trail : Trail}
    (h : (session s words).run {} = (.error e, trail)) : run s words = (e, trail) := by
  have hsession : (session s words).run.run {} = (.error e, trail) := h
  unfold run
  rw [hsession]

/-- How the command ends is how the call ends. -/
theorem Validates.run_eq (h : Validates s words logger g) {e : Ending} {trail : Trail}
    (hrun : (Validation.run s logger (Validation.ofGiven s g)).run {} = (.error e, trail)) :
    run s words = (e, trail) :=
  run_eq_of_session (h.session_eq ▸ hrun)

/-- **The format** of exports is one of those that there are. -/
theorem Validates.exists_format (h : Validates s words logger g) :
    ∃ f, ExportFormat.named? (Validation.ofGiven s g).format = some f := by
  obtain ⟨before, rest, -, -, hg, -⟩ := h
  obtain ⟨-, -, hproblem⟩ := Call.accepted?_eq_some hg
  change ∃ f, ExportFormat.named?
    (((g.value? "--format").map (·.map Call.foldLetter)).getD "yaml") = some f
  cases hvalue : g.value? "--format" with
  | none => exact ⟨.yaml, by decide⟩
  | some t =>
    -- the option is given, so that its value has been checked in its turn
    have horder : Text.ofString "--format" ∈ Command.validate.spec.order g := by
      unfold CommandSpec.order
      by_cases hgiven : (g.options.map Prod.fst).eraseDups.contains (Text.ofString "--format")
      · exact List.mem_append_left _ (List.mem_append_left _ (List.contains_iff_mem.mp hgiven))
      · refine List.mem_append_right _ (List.mem_filter.mpr ⟨by decide, ?_⟩)
        rw [Bool.not_eq_true', Bool.eq_false_iff]
        exact hgiven
    have hset : Call.value? s g (Text.ofString "--format") = some t := by
      unfold Call.value?
      rw [hvalue, Option.some_or]
    have hnone := Call.valueProblem?_eq_none hproblem
      (o := ⟨"--format", .choice ["yaml", "json"], "Export format.  [default: yaml]"⟩)
      rfl (by decide) horder hset
    unfold Call.valueProblem? at hnone
    dsimp only at hnone
    cases hchosen : Call.chosen? ["yaml", "json"] t with
    | none =>
      rw [hchosen] at hnone
      cases hnone
    | some word =>
      have hword : word = t.map Call.foldLetter := by
        have hfound := List.find?_some hchosen
        exact of_decide_eq_true hfound
      rw [Option.map_some, Option.getD_some, ← hword]
      rcases List.mem_cons.mp (List.mem_of_find?_eq_some hchosen) with rfl | hmem
      · exact ⟨.yaml, by decide⟩
      · obtain rfl := List.mem_singleton.mp hmem
        exact ⟨.json, by decide⟩

/-! ### Paths that do not pass -/

/-- **A call that asks for files to be validated**: its words are in order, but for what may stand
under the paths of the files. -/
structure Requests (s : Surroundings) (words : List Text) (logger : Logger) (g : Given) : Prop where
  exists_command : ∃ before rest, Call.accepted? s Command.program words = some before ∧
    before.arguments = Command.validate.name :: rest ∧
    Command.validate.spec.read rest = .ok g ∧
    logger = (({} : Logger).configure (level s before)).1
  asksNoHelp : g.has CommandSpec.helpOption.name = false
  hasFiles : g.arguments ≠ []
  /-- No other parameter has a wrong value. -/
  options : ∀ parameter ∈ Command.validate.spec.order g, parameter ≠ Command.files →
    Call.parameterProblem? s Command.validate.spec g parameter = none

/-- The files are among the parameters that are checked. -/
theorem files_mem_order (g : Given) : Command.files ∈ Command.validate.spec.order g :=
  List.mem_append_left _ (List.mem_append_right _ List.mem_cons_self)

/-- **If all paths pass**, the files are validated. -/
theorem Requests.validates (h : Requests s words logger g)
    (hfiles : ∀ t ∈ g.arguments, ¬ Call.IsRefused s t) : Validates s words logger g := by
  obtain ⟨before, rest, hbefore, hrest, hread, hlogger⟩ := h.exists_command
  refine ⟨before, rest, hbefore, hrest, ?_, hlogger⟩
  -- only the files may have stood in the way, and they do not
  have hproblem : Call.problem? s Command.validate.spec g = none := by
    unfold Call.problem?
    refine Option.or_eq_none_iff.mpr ⟨?_, if_neg fun hnone => absurd hnone.1 (by decide)⟩
    refine List.findSome?_eq_none_iff.mpr fun parameter hparameter => ?_
    by_cases hname : parameter = Command.files
    · unfold Call.parameterProblem?
      rw [if_pos hname, Call.filesProblem?_eq_none_iff h.hasFiles]
      exact hfiles
    · exact h.options parameter hparameter hname
  unfold Call.accepted?
  rw [hread]
  dsimp only
  rw [if_neg]
  rintro (hhelp | hsome)
  · rw [h.asksNoHelp] at hhelp
    cases hhelp
  · rw [hproblem] at hsome
    cases hsome

/-- **A path that does not pass** ends the call with exit code 2, before anything is read, and all
that is said is an error about the words of the call. -/
theorem Requests.run_of_isRefused (h : Requests s words logger g)
    (hfiles : ¬ ∀ t ∈ g.arguments, ¬ Call.IsRefused s t) :
    (run s words).1 = .exit 2 ∧ (run s words).2.output = #[] ∧ (run s words).2.written = [] := by
  obtain ⟨before, rest, hbefore, hrest, hread, rfl⟩ := h.exists_command
  -- the files have a problem, so that something is told and the command is not begun
  obtain ⟨e, he⟩ : ∃ e, Call.problem? s Command.validate.spec g = some e := by
    rw [← Option.isSome_iff_exists, Option.isSome_iff_ne_none]
    intro hnone
    unfold Call.problem? at hnone
    have hfirst := (Option.or_eq_none_iff.mp hnone).1
    have hparameter := List.findSome?_eq_none_iff.mp hfirst _ (files_mem_order g)
    unfold Call.parameterProblem? at hparameter
    rw [if_pos rfl, Call.filesProblem?_eq_none_iff h.hasFiles] at hparameter
    exact hfiles hparameter
  have hrefuse : Session.Leaves (Call.begin s Command.validate.spec [] rest) [] []
      (.error (.exit 2)) := by
    unfold Call.begin
    rw [hread]
    dsimp only
    rw [if_neg (by rw [h.asksNoHelp]; exact Bool.false_ne_true), he]
    exact (Session.leaves_complain _).andThen (Session.Leaves.throw _)
  have hsession : Session.Leaves (session s words) [] [] (.error (.exit 2)) := by
    rw [session_eq_of_accepted? hbefore hrest]
    exact hrefuse.bind_error _
  obtain ⟨trail, hrun, houtput, hwritten⟩ := hsession.exists_run
  rw [run_eq_of_session hrun]
  exact ⟨rfl, Array.toList_eq_nil_iff.mp houtput, hwritten⟩

end Program

end StepCheck
