import StepCheck.Proofs.CommandLine.Verdict

/-!
# Files that are kept

No file of a batch stands in the way of another: those that can be read are validated, shown and
exported in their order, and the others are told of and make the exit code 1. But what is told of a
file names its path without escaping it, and so do the progress and what is told of the export; and
the line over a report names its file without replacing what has no bytes. A path with brackets may
close a style that is not open, and one with surrogates cannot be written. Then the call ends there:
no file is shown or exported, or the reports have been written without a verdict. A folder among the
files, or a file that may not be read, is refused before anything is done.

* `Validation.Keeps` — a call loses no file;
* `Program.files_kept_iff` — a call loses no file exactly if no path is refused and the terminal
  prints what names files, and what it does otherwise;
* `Program.not_keeps_bracket` — a call that loses a file.
-/

namespace StepCheck

open Markup

namespace Validation

variable {s : Surroundings} {P : Policy} {v : Validation}

/-- **A call loses no file** if it ends like this and leaves this behind. -/
structure Keeps (s : Surroundings) (P : Policy) (v : Validation) (e : Ending) (trail : Trail) :
    Prop where
  /-- Every file that cannot be read is told of, and then every other one is shown. -/
  output : ∃ verdict, trail.output.toList = v.transcript s P
    ++ (v.notes ((v.readable s).map (Source.report s P))).flatMap (said s.terminal) ++ verdict
  /-- All parts are printed to their ends, the report of each file that can be read among them. -/
  printed : ∀ part ∈ v.parts s P, part.printed.1 = .ok ()
  written : v.Exports ((v.readable s).map (Source.report s P)) trail.written
  /-- There is an exit code, and it is 1 if some file cannot be read. -/
  exit : ∃ code, e = .exit code ∧ (v.unreadable s ≠ [] → code = 1)

end Validation

/-! ### Calls -/

/-- **No member is left twice** where repetitions are removed. -/
theorem nodup_eraseDups {α : Type} [DecidableEq α] : ∀ xs : List α, xs.eraseDups.Nodup
  | [] => List.nodup_nil
  | x :: xs => by
    rw [List.eraseDups_cons, List.nodup_cons]
    refine ⟨fun hx => ?_, nodup_eraseDups _⟩
    have hne := (List.mem_filter.mp (List.mem_eraseDups.mp hx)).2
    rw [beq_self_eq_true] at hne
    exact Bool.false_ne_true hne
-- all repetitions of a member are removed at once
termination_by xs => xs.length
decreasing_by exact Nat.lt_succ_of_le (List.length_filter_le _ xs)

namespace Program

variable {s : Surroundings} {words : List Text} {logger : Logger} {g : Given}

/-- A call leaves behind what its command does. -/
theorem Validates.run_of_leaves (h : Validates s words logger g) {ls : List Text}
    {files : List (Path × Text)} {e : Ending}
    (hrun : Session.Leaves (Validation.run s logger (Validation.ofGiven s g)) ls files (.error e)) :
    (run s words).1 = e ∧ (run s words).2.output.toList = ls ∧
      (run s words).2.written = files := by
  obtain ⟨trail, hrun, houtput, hwritten⟩ := hrun.exists_run
  rw [h.run_eq hrun]
  exact ⟨rfl, houtput, hwritten⟩

section Run

variable (h : Validates s words logger g) {P : Policy}
  (hpolicy : s.policy? (Validation.ofGiven s g).policy = some P)
  (htimes : (Validation.ofGiven s g).Timed s)

include h hpolicy htimes

/-- **The first part that is not printed** ends the call, and nothing is written. -/
theorem run_of_unprinted
    (hparts : ¬ ∀ part ∈ (Validation.ofGiven s g).parts s P, part.printed.1 = .ok ()) :
    ∃ done part rest e, (Validation.ofGiven s g).parts s P = done ++ part :: rest ∧
      (∀ part ∈ done, part.printed.1 = .ok ()) ∧ part.printed.1 = .error e ∧
      (run s words).1 = .failure (.view e) ∧
      (run s words).2.output.toList
        = (done.flatMap fun part => part.printed.2) ++ part.printed.2 ∧
      (run s words).2.written = [] := by
  obtain ⟨done, part, rest, e, hsplit, hdone, hpart⟩ := Report.exists_first_error hparts
  have hlines := Report.inTurn_of_error hdone hpart rest
  rw [← hsplit] at hlines
  have hperform := Validation.leaves_perform_error hpolicy logger htimes (congrArg Prod.fst hlines)
  rw [hlines] at hperform
  refine ⟨done, part, rest, e, hsplit, hdone, hpart, h.run_of_leaves ?_⟩
  rw [Validation.run_eq]
  exact hperform.bind_error _

variable (hwritable : ∀ path, (Validation.ofGiven s g).exportPath = some path →
    s.files.writeProblem? path = none)
  (hparts : ∀ part ∈ (Validation.ofGiven s g).parts s P, part.printed.1 = .ok ())

include hwritable hparts

/-- **If all parts are printed** but not what is told of the export, only the verdict is lost. -/
theorem run_of_unnoted
    (hnotes : ¬ ∀ t ∈ (Validation.ofGiven s g).notes (((Validation.ofGiven s g).readable s).map
      (Validation.Source.report s P)), s.terminal.Prints t) :
    let v := Validation.ofGiven s g
    (∃ e, (run s words).1 = .failure (.view e)) ∧
      (run s words).2.output.toList = v.transcript s P ∧
      v.Exports ((v.readable s).map (Validation.Source.report s P)) (run s words).2.written := by
  obtain ⟨files, hfiles, -, hfailed⟩ := Validation.leaves_perform hpolicy logger htimes
    h.exists_format hwritable hparts
  obtain ⟨e, hperform⟩ := hfailed hnotes
  have hrun := hperform.bind_error fun done =>
    (Validation.ofGiven s g).conclude s done.1 done.2
  rw [← Validation.run_eq] at hrun
  obtain ⟨hend, houtput, hwritten⟩ := h.run_of_leaves hrun
  exact ⟨⟨e, hend⟩, houtput, hwritten ▸ hfiles⟩

/-- **If this is printed as well**, no file is lost. -/
theorem keeps_of_printed (hc : s.terminal.Sound)
    (hnotes : ∀ t ∈ (Validation.ofGiven s g).notes (((Validation.ofGiven s g).readable s).map
      (Validation.Source.report s P)), s.terminal.Prints t) :
    (Validation.ofGiven s g).Keeps s P (run s words).1 (run s words).2 := by
  obtain ⟨files, hfiles, hshown, -⟩ := Validation.leaves_perform hpolicy logger htimes
    h.exists_format hwritable hparts
  have hrun : Session.Leaves ((Validation.ofGiven s g).perform s logger >>= fun done =>
      (Validation.ofGiven s g).conclude s done.1 done.2) _ _ _ :=
    (hshown hnotes).bind
      (Validation.leaves_conclude (hc.prints (Validation.proper_verdictLine _ _ _)))
  rw [List.append_nil, ← Validation.run_eq] at hrun
  obtain ⟨hend, houtput, hwritten⟩ := h.run_of_leaves hrun
  refine ⟨⟨_, houtput⟩, hparts, hwritten ▸ hfiles, _, hend, fun hunreadable => ?_⟩
  rw [Validation.exitCode_eq_one_iff]
  exact .inl fun hlength => hunreadable (List.length_eq_zero_iff.mp hlength)

end Run

/-- A path that is refused is one of a file that cannot be read. -/
theorem unreadable_ne_nil_of_isRefused {t : Text} (ht : t ∈ g.arguments)
    (h : Call.IsRefused s t) : (Validation.ofGiven s g).unreadable s ≠ [] := by
  have hsource : Validation.source? s (Path.of t) = none := by
    unfold Validation.source? Files.bytes? Files.read
    rcases h.2 with hfile | hfile <;> rw [hfile] <;> rfl
  have hfiles : Path.of t ∈ (Validation.ofGiven s g).files :=
    List.mem_eraseDups.mpr (List.mem_map_of_mem ht)
  exact List.ne_nil_of_mem (List.mem_filter.mpr ⟨hfiles, by rw [hsource]; rfl⟩)

/-- **No file of a batch is lost** exactly if no path is refused and the terminal prints what names
files. The files are those that are given, each of them once and in the order in which they are
given first; every one that can be read has its report, and of each that cannot it is told which
problem there is. If some path is refused, the call ends with exit code 2 and has done nothing. If
something that names a file is not printed, the call ends there; nothing is written, and no report
is shown behind it. If only what it tells of the export is not printed, the call ends after the
reports have been written. -/
theorem files_kept_iff (h : Requests s words logger g) {P : Policy}
    (hpolicy : s.policy? (Validation.ofGiven s g).policy = some P)
    (hc : s.terminal.Sound) (htimes : (Validation.ofGiven s g).Timed s)
    (hwritable : ∀ path, (Validation.ofGiven s g).exportPath = some path →
      s.files.writeProblem? path = none) :
    let v := Validation.ofGiven s g
    let rs := (v.readable s).map (Validation.Source.report s P)
    let outcome := run s words
    let passes := ∀ t ∈ g.arguments, ¬ Call.IsRefused s t
    v.files = (g.arguments.map Path.of).eraseDups ∧ v.files.Nodup ∧
    (∀ f ∈ v.readable s, (Validation.runOf s P f).result = .ok (f.report s P)) ∧
    List.Forall₂ (fun path t => ∃ problem, s.files.read path = .error problem ∧
      t = "[red]Cannot read " ++ path.shown ++ ": " ++ Markup.escape (problem.message path)
        ++ "[/red]") (v.unreadable s) (v.problems s) ∧
    (v.Keeps s P outcome.1 outcome.2 ↔
      passes ∧ v.NamesPrinted s P ∧ ∀ t ∈ v.notes rs, s.terminal.Prints t) ∧
    (¬ passes → outcome.1 = .exit 2 ∧ outcome.2.output = #[] ∧ outcome.2.written = []) ∧
    (passes → ¬ v.NamesPrinted s P → ∃ done part rest e, v.parts s P = done ++ part :: rest ∧
      (∀ part ∈ done, part.printed.1 = .ok ()) ∧ part.printed.1 = .error e ∧
      outcome.1 = .failure (.view e) ∧
      outcome.2.output.toList = (done.flatMap fun part => part.printed.2) ++ part.printed.2 ∧
      outcome.2.written = []) ∧
    (passes → v.NamesPrinted s P → ¬ (∀ t ∈ v.notes rs, s.terminal.Prints t) →
      (∃ e, outcome.1 = .failure (.view e)) ∧
      outcome.2.output.toList = v.transcript s P ∧ v.Exports rs outcome.2.written) := by
  intro v rs outcome passes
  have hP := Surroundings.accepted_of_policy? hpolicy
  have hthrough := Validation.parts_go_through_iff hc hP htimes
  have hrefused : ¬ passes →
      outcome.1 = .exit 2 ∧ outcome.2.output = #[] ∧ outcome.2.written = [] := h.run_of_isRefused
  -- the two ways in which a call that passes ends early
  have hunprinted := fun (hpasses : passes) (hnames : ¬ v.NamesPrinted s P) =>
    run_of_unprinted (h.validates hpasses) hpolicy htimes (mt hthrough.mp hnames)
  have hunnoted := fun (hpasses : passes) (hnames : v.NamesPrinted s P) =>
    run_of_unnoted (h.validates hpasses) hpolicy htimes hwritable (hthrough.mpr hnames)
  refine ⟨rfl, nodup_eraseDups _, fun f hf => Validation.result_runOf hP (htimes.zero_le f hf),
    Validation.forall₂_problems s v, ⟨fun hkeeps => ?_, ?_⟩, hrefused, hunprinted, hunnoted⟩
  · -- a call that keeps its files prints all of its parts, and has an exit code
    obtain ⟨-, hparts, -, code, hcode, hone⟩ := hkeeps
    have hnames := hthrough.mp hparts
    have hpasses : passes := by
      by_contra hrefuse
      have hunreadable : v.unreadable s ≠ [] := by
        simp only [passes, not_forall, not_not] at hrefuse
        obtain ⟨t, ht, hrefuse⟩ := hrefuse
        exact unreadable_ne_nil_of_isRefused ht hrefuse
      rw [hone hunreadable, (hrefused hrefuse).1] at hcode
      cases hcode
    refine ⟨hpasses, hnames, ?_⟩
    by_contra hnotes
    obtain ⟨⟨e, he⟩, -⟩ := hunnoted hpasses hnames hnotes
    rw [he] at hcode
    cases hcode
  · rintro ⟨hpasses, hnames, hnotes⟩
    exact keeps_of_printed (h.validates hpasses) hpolicy htimes hwritable (hthrough.mpr hnames) hc
      hnotes

/-- The words of a call about a file that is not there and an empty one that is given twice. -/
def repeatedWords : List Text := ["validate", "b.ifc", "a.ifc", "./a.ifc", "--export", "out/r.yaml"]

/-- The parameters of the call. -/
def repeatedGiven : Given := ⟨[("--export", "out/r.yaml")], ["b.ifc", "a.ifc", "./a.ifc"]⟩

theorem requests_repeated :
    Requests (.still [(Path.of "a.ifc", [])]) repeatedWords ⟨1, 30⟩ repeatedGiven where
  exists_command := by
    refine ⟨⟨[], repeatedWords⟩, repeatedWords.tail, ?_, rfl, ?_, ?_⟩
    · decide +kernel
    · rfl
    · decide +kernel
  asksNoHelp := by decide +kernel
  hasFiles := by decide
  options := by decide +kernel

/-- The call loses no file. -/
theorem files_kept_iff_repeated :
    let s := Surroundings.still [(Path.of "a.ifc", [])]
    (Validation.ofGiven s repeatedGiven).Keeps s Policy.bundled (run s repeatedWords).1
      (run s repeatedWords).2 := by
  intro s
  have hwritable : ∀ path, (Validation.ofGiven s repeatedGiven).exportPath = some path →
      s.files.writeProblem? path = none := by
    rintro _ ⟨⟩
    decide +kernel
  obtain ⟨-, -, -, -, hkeeps, -⟩ := files_kept_iff requests_repeated rfl Terminal.sound_utf8
    (Validation.timed_still _ _) hwritable
  refine hkeeps.mpr ⟨by decide +kernel, ?_, ?_⟩
  · exact Validation.namesPrinted_of_isPlain Terminal.sound_utf8 (by decide +kernel)
      (by decide +kernel)
  · have hnote : ∀ path ∈ (Validation.ofGiven s repeatedGiven).exportPath,
        Markup.IsPlain path.shown := by
      rintro _ ⟨⟩
      decide +kernel
    exact Validation.prints_of_mem_notes Terminal.sound_utf8 hnote _

/-- The words of a call about an empty file, where a file that is not there has brackets in its
name. -/
def bracketWords : List Text := ["validate", "x[/b].ifc", "a.ifc", "--no-progress"]

/-- The parameters of the call. -/
def bracketGiven : Given := ⟨[("--no-progress", [])], ["x[/b].ifc", "a.ifc"]⟩

theorem validates_bracket :
    Validates (.still [(Path.of "a.ifc", [])]) bracketWords ⟨1, 30⟩ bracketGiven := by
  refine ⟨⟨[], bracketWords⟩, bracketWords.tail, ?_, rfl, ?_, ?_⟩
  · decide +kernel
  · decide +kernel
  · decide +kernel

/-- **The call loses a file**: it ends before the file that is there is validated, and without a
line. -/
theorem not_keeps_bracket :
    let s := Surroundings.still [(Path.of "a.ifc", [])]
    let v := Validation.ofGiven s bracketGiven
    Validates s bracketWords ⟨1, 30⟩ bracketGiven ∧ s.policy? v.policy = some Policy.bundled ∧
      v.Timed s ∧ v.exportPath = none ∧ v.readable s = [⟨Path.of "a.ifc", []⟩] ∧
      (run s bracketWords).2.output = #[] ∧
      ¬ v.Keeps s Policy.bundled (run s bracketWords).1 (run s bracketWords).2 := by
  intro s v
  -- the first of the parts is what is said of the file with the brackets
  obtain ⟨t, hproblems, ht⟩ : ∃ t, v.problems s = [t] ∧ ¬ s.terminal.Prints t :=
    ⟨_, rfl, by decide +kernel⟩
  obtain ⟨rest, hparts⟩ : ∃ rest, v.parts s Policy.bundled = Report.say s.terminal t :: rest := by
    unfold Validation.parts
    rw [hproblems]
    exact ⟨_, rfl⟩
  obtain ⟨e, he⟩ := Report.exists_writes_say ht
  have hfirst := Report.inTurn_cons_of_error (congrArg Prod.fst he.printed) rest
  rw [← hparts, he.printed] at hfirst
  have hperform := Validation.leaves_perform_error (s := s) (v := v) rfl ⟨1, 30⟩
    (Validation.timed_still _ _) (congrArg Prod.fst hfirst)
  rw [hfirst] at hperform
  have hrun := hperform.bind_error fun done => v.conclude s done.1 done.2
  rw [← Validation.run_eq] at hrun
  obtain ⟨hend, houtput, -⟩ := validates_bracket.run_of_leaves hrun
  refine ⟨validates_bracket, rfl, Validation.timed_still _ _, rfl, rfl, ?_, ?_⟩
  · exact Array.toList_eq_nil_iff.mp houtput
  · rintro ⟨-, -, -, code, hcode, -⟩
    rw [hend] at hcode
    cases hcode

end Program

end StepCheck
