import StepCheck.Proofs.CommandLine.Calls
import StepCheck.Proofs.CommandLine.Transcript

/-!
# The verdict of a call

A call that validates files ends with an exit code, which it computes from sums of numbers in the
reports. What the code says of the files is a matter of their outcomes: whether there is an error
anywhere, or a warning.

* `Report.zero_lt_count_iff` — sums of numbers of outcomes are positive if one of them is;
* `Validation.exitCode` — the exit code of a verdict, with its three values
  (`exitCode_eq_one_iff`, `exitCode_eq_two_iff`, `exitCode_eq_zero_iff`);
* `Validation.leaves_conclude` — the last line of a call and its exit code;
* `Program.exit_of_verdict` — what the exit code of a call says, and what does not change it.
-/

namespace StepCheck

/-! ### Numbers of outcomes -/

namespace Report

/-- **A sum of numbers** none of which is negative is positive just if one of them is. -/
theorem zero_lt_count_iff {xs : List Int} (h : ∀ x ∈ xs, 0 ≤ x) :
    0 < count xs ↔ ∃ x ∈ xs, 0 < x := by
  have hfold : ∀ a : Int, 0 ≤ a → (0 < xs.foldl (· + ·) a ↔ 0 < a ∨ ∃ x ∈ xs, 0 < x) := by
    induction xs with
    | nil => exact fun a _ => ⟨.inl, fun h => h.elim id nofun⟩
    | cons x xs ih =>
      intro a ha
      obtain ⟨hx, hxs⟩ := List.forall_mem_cons.mp h
      rw [List.foldl_cons, ih hxs (a + x) (by omega), List.exists_mem_cons_iff, ← or_assoc]
      refine or_congr_left ⟨fun _ => by omega, fun _ => by omega⟩
  exact (hfold 0 le_rfl).trans ⟨fun h => h.resolve_left (lt_irrefl 0), .inr⟩

/-- A sum of numbers that are not negative is positive just if one of them is. -/
theorem zero_lt_count_map_iff {number : Report → Int} {rs : List Report}
    (h : ∀ r ∈ rs, 0 ≤ number r) : 0 < count (rs.map number) ↔ ∃ r ∈ rs, 0 < number r := by
  rw [zero_lt_count_iff (List.forall_mem_map.mpr h)]
  simp only [List.mem_map, exists_exists_and_eq_and]

variable (filename : Text) (validationTime estimatedTime : Float) (results : List Outcome)

/-- The report of outcomes is invalid just if some number of errors is counted. -/
theorem isValid_of_eq_false_iff :
    (of filename validationTime estimatedTime results).isValid = false ↔
      0 < (of filename validationTime estimatedTime results).summary.errors := by
  change decide ((Outcome.countOf .error results : Int) = 0) = false ↔ 0 < (_ : Int)
  rw [decide_eq_false_iff_not]
  change ¬ ((Outcome.countOf .error results : Int) = 0) ↔ 0 < (Outcome.countOf .error results : Int)
  omega

/-- Warnings are counted just if there is one. -/
theorem zero_lt_warnings_of_iff :
    0 < (of filename validationTime estimatedTime results).summary.warnings ↔
      ∃ o ∈ results, o.severity = .warning := by
  change 0 < (Outcome.countOf .warning results : Int) ↔ _
  unfold Outcome.countOf
  rw [Int.natCast_pos, List.countP_pos_iff]
  simp only [decide_eq_true_eq]

end Report

/-! ### The exit code -/

namespace Validation

/-- **The exit code** of a verdict. -/
def exitCode (v : Validation) (unreadable : Nat) (rs : List Report) : Nat :=
  if unreadable ≠ 0 ∨ 0 < Report.count (rs.map fun r => r.summary.errors) then 1
  else if v.isStrict ∧ 0 < Report.count (rs.map fun r => r.summary.warnings) then 2
  else 0

/-- **The line** of a verdict. -/
def verdictLine (v : Validation) (unreadable : Nat) (rs : List Report) : Text :=
  let errors := Report.count (rs.map fun r => r.summary.errors)
  let warnings := Report.count (rs.map fun r => r.summary.warnings)
  if unreadable ≠ 0 ∨ 0 < errors then
    "\n[red]✗[/red] Validation failed with " ++ Text.ofInt errors ++ " errors"
  else if v.isStrict ∧ 0 < warnings then
    "\n[yellow]⚠[/yellow] Validation completed with " ++ Text.ofInt warnings
      ++ " warnings (strict mode)"
  else "\n[green]✓[/green] Validation completed successfully"

/-- The verdict is told, and the call ends with the exit code. -/
theorem conclude_eq (s : Surroundings) (v : Validation) (unreadable : Nat) (rs : List Report) :
    v.conclude s unreadable rs = Session.say s (v.verdictLine unreadable rs) >>= fun _ =>
      Session.exit (v.exitCode unreadable rs) := by
  unfold conclude verdictLine exitCode
  dsimp only
  split
  · rfl
  · split <;> rfl

/-- **The line** is in order. -/
theorem proper_verdictLine (v : Validation) (unreadable : Nat) (rs : List Report) :
    Markup.Proper (v.verdictLine unreadable rs) := by
  -- a mark in the colour of the verdict, and plain text behind it
  have hline : ∀ (severity : Severity) (mark words : Text) {front : Text},
      front = "\n" ++ ("[" ++ severity.colour ++ "]" ++ mark ++ "[/" ++ severity.colour ++ "]"
        ++ words) → Markup.IsPlain mark → Markup.IsPlain words → ∀ {back : Text},
        Markup.IsPlain back → Markup.Proper (front ++ back) := by
    rintro severity mark words _ rfl hmark hwords back hback
    rw [List.append_assoc, List.append_assoc]
    exact .before (by decide) (severity.proper_colour (.plain hmark) (.plain (hwords.append hback)))
  unfold verdictLine
  dsimp only
  split
  · rw [List.append_assoc]
    exact hline .error "✗" " Validation failed with " (by decide +kernel) (by decide +kernel)
      (by decide +kernel) ((Text.isPlain_ofInt _).append (by decide +kernel))
  · split
    · rw [List.append_assoc]
      exact hline .warning "⚠" " Validation completed with " (by decide +kernel)
        (by decide +kernel) (by decide +kernel) ((Text.isPlain_ofInt _).append (by decide +kernel))
    · rw [← List.append_nil ("\n[green]✓[/green] Validation completed successfully" : Text)]
      exact hline .passed "✓" " Validation completed successfully" (by decide +kernel)
        (by decide +kernel) (by decide +kernel) (by decide)

/-- **The verdict** is told if its line is printed, and the call ends with its exit code. -/
theorem leaves_conclude {s : Surroundings} {v : Validation} {unreadable : Nat} {rs : List Report}
    (h : s.terminal.Prints (v.verdictLine unreadable rs)) :
    Session.Leaves (v.conclude s unreadable rs) (said s.terminal (v.verdictLine unreadable rs)) []
      (.error (.exit (v.exitCode unreadable rs))) := by
  have hlines := Report.inTurn_of_ok
    (List.forall_mem_singleton.mpr (Report.printed_say_iff.mpr h))
  have hsay := (Session.PrintsInTurn.printing _).leaves (congrArg Prod.fst hlines)
  rw [hlines] at hsay
  rw [conclude_eq]
  have hexit := Session.Leaves.throw (α := Unit) (.exit (v.exitCode unreadable rs))
  refine (hsay.andThen hexit).of_eq ?_ rfl
  rw [List.append_nil]
  exact List.append_nil _

/-- There are three exit codes. -/
theorem exitCode_le_two (v : Validation) (unreadable : Nat) (rs : List Report) :
    v.exitCode unreadable rs ≤ 2 := by
  unfold exitCode
  split
  · exact Nat.one_le_ofNat
  · split
    · exact le_rfl
    · exact Nat.zero_le 2

/-- Exit code 0 is left. -/
theorem exitCode_eq_zero_iff (v : Validation) (unreadable : Nat) (rs : List Report) :
    v.exitCode unreadable rs = 0 ↔
      v.exitCode unreadable rs ≠ 1 ∧ v.exitCode unreadable rs ≠ 2 := by
  have hle := v.exitCode_le_two unreadable rs
  omega

section Files

variable (s : Surroundings) (P : Policy) (v : Validation) (unreadable : Nat) (fs : List Source)

/-- Errors are counted just if some file is not valid. -/
theorem zero_lt_errors_iff :
    0 < Report.count ((fs.map (Source.report s P)).map fun r => r.summary.errors) ↔
      ∃ r ∈ fs.map (Source.report s P), r.isValid = false := by
  rw [Report.zero_lt_count_map_iff (List.forall_mem_map.mpr fun _ _ => Int.natCast_nonneg _)]
  refine exists_congr fun r => and_congr_right fun hr => ?_
  obtain ⟨f, -, rfl⟩ := List.mem_map.mp hr
  exact (Report.isValid_of_eq_false_iff _ _ _ _).symm

/-- Warnings are counted just if there is one in some report. -/
theorem zero_lt_warnings_iff :
    0 < Report.count ((fs.map (Source.report s P)).map fun r => r.summary.warnings) ↔
      ∃ r ∈ fs.map (Source.report s P), ∃ o ∈ r.results, o.severity = .warning := by
  rw [Report.zero_lt_count_map_iff (List.forall_mem_map.mpr fun _ _ => Int.natCast_nonneg _)]
  refine exists_congr fun r => and_congr_right fun hr => ?_
  obtain ⟨f, -, rfl⟩ := List.mem_map.mp hr
  exact Report.zero_lt_warnings_of_iff _ _ _ _

/-- **Exit code 1** tells of a file that could not be read or is not valid. -/
theorem exitCode_eq_one_iff :
    v.exitCode unreadable (fs.map (Source.report s P)) = 1 ↔
      unreadable ≠ 0 ∨ ∃ r ∈ fs.map (Source.report s P), r.isValid = false := by
  rw [← zero_lt_errors_iff]
  unfold exitCode
  split
  · next h => exact iff_of_true rfl h
  · next h =>
    refine iff_of_false ?_ h
    split <;> decide

/-- **Exit code 2** tells of a warning, if that is asked for and nothing is worse. -/
theorem exitCode_eq_two_iff :
    v.exitCode unreadable (fs.map (Source.report s P)) = 2 ↔
      v.exitCode unreadable (fs.map (Source.report s P)) ≠ 1 ∧ v.isStrict = true ∧
        ∃ r ∈ fs.map (Source.report s P), ∃ o ∈ r.results, o.severity = .warning := by
  rw [← zero_lt_warnings_iff]
  unfold exitCode
  split
  · exact iff_of_false (by decide) fun h => h.1 rfl
  · split
    · next h => exact iff_of_true rfl ⟨by decide, h⟩
    · next h => exact iff_of_false (by decide) fun h' => h h'.2

/-- The times that validations take do not matter, and of what is asked for only whether warnings
count. -/
theorem exitCode_congr (s' : Surroundings) {v' : Validation} (h : v'.isStrict = v.isStrict) :
    v'.exitCode unreadable (fs.map (Source.report s' P))
      = v.exitCode unreadable (fs.map (Source.report s P)) := by
  -- a summary counts outcomes, and these are those of the file
  have hsummary : ∀ number : Summary → Int,
      (fs.map (Source.report s' P)).map (fun r => number r.summary)
        = (fs.map (Source.report s P)).map fun r => number r.summary := by
    intro number
    rw [List.map_map, List.map_map]
    rfl
  unfold exitCode
  rw [hsummary Summary.errors, hsummary Summary.warnings, h]

end Files

/-- **A call comes to its verdict**: all that is done before goes through, and the verdict is given
on a number of files that could not be read, and on reports of the others, in a line that is
printed. -/
def ComesToVerdict (s : Surroundings) (logger : Logger) (v : Validation) (unreadable : Nat)
    (rs : List Report) : Prop :=
  (∃ trail, (v.perform s logger).run {} = (.ok (unreadable, rs), trail)) ∧
    s.terminal.Prints (v.verdictLine unreadable rs)

variable {s : Surroundings} {logger : Logger} {v : Validation} {unreadable : Nat}
  {rs : List Report}

/-- On a terminal that prints what is in order, the line goes through. -/
theorem comesToVerdict_of_sound (hc : s.terminal.Sound) {trail : Trail}
    (h : (v.perform s logger).run {} = (.ok (unreadable, rs), trail)) :
    ComesToVerdict s logger v unreadable rs :=
  ⟨⟨trail, h⟩, hc.prints (v.proper_verdictLine unreadable rs)⟩

/-- The number and the reports are those of the files. -/
theorem ComesToVerdict.exists_policy (h : ComesToVerdict s logger v unreadable rs) :
    ∃ P, s.policy? v.policy = some P ∧ unreadable = (v.unreadable s).length ∧
      rs = (v.readable s).map (Source.report s P) := by
  obtain ⟨⟨trail, hperform⟩, -⟩ := h
  obtain ⟨P, hP, hanswer⟩ := answers_perform s logger v {} _ trail hperform
  obtain ⟨hunreadable, hrs⟩ := Prod.mk.inj hanswer
  exact ⟨P, hP, hunreadable, hrs⟩

/-- The call then ends with the exit code. -/
theorem ComesToVerdict.run_eq (h : ComesToVerdict s logger v unreadable rs) :
    ∃ trail, (v.run s logger).run {} = (.error (.exit (v.exitCode unreadable rs)), trail) := by
  obtain ⟨⟨trail, hperform⟩, hprints⟩ := h
  obtain ⟨d, hconclude, -, -⟩ := leaves_conclude hprints
  refine ⟨trail ++ d, ?_⟩
  rw [Validation.run_eq, Session.run_bind_of_run_eq hperform]
  exact hconclude trail

/-- Files that cannot be read are counted just if there is one. -/
theorem length_unreadable_ne_zero_iff (s : Surroundings) (v : Validation) :
    (v.unreadable s).length ≠ 0 ↔ ∃ path ∈ v.files, s.files.bytes? path = none := by
  unfold unreadable
  rw [← Nat.pos_iff_ne_zero, List.length_pos_iff_exists_mem]
  refine exists_congr fun path => ?_
  rw [List.mem_filter]
  unfold source?
  rw [Option.isNone_map, Option.isNone_iff_eq_none]

/-- Which files can be read is a matter of the files. -/
theorem readable_congr {s' : Surroundings} {v' : Validation} (hs : s'.files = s.files)
    (hv : v'.files = v.files) :
    v'.readable s' = v.readable s ∧ v'.unreadable s' = v.unreadable s := by
  have hsource : source? s' = source? s := by
    unfold source?
    rw [hs]
  unfold readable unreadable
  rw [hsource, hv]
  exact ⟨rfl, rfl⟩

/-- Which policy is used is a matter of the files and of the reader. -/
theorem policy?_congr {s' : Surroundings} (hs : s'.files = s.files)
    (hreader : s'.reader = s.reader) : s'.policy? = s.policy? := by
  funext path
  unfold Surroundings.policy?
  rw [hs, hreader]

end Validation

/-! ### Calls -/

/-- **The exit code of a call.** If a call that validates files comes to its verdict, it does so on
the reports of all files that can be read. It ends with exit code 1 just if some file cannot be read
or some report is not valid, else with 2 just if warnings count and there is one, and else with 0.
Any other call about the same files, under the same policy and as strict, that comes to its verdict
ends with the same exit code, whatever else it asks for. -/
theorem Program.exit_of_verdict {s : Surroundings} {words : List Text} {logger : Logger} {g : Given}
    (h : Validates s words logger g) {unreadable : Nat} {rs : List Report}
    (hverdict : (Validation.ofGiven s g).ComesToVerdict s logger unreadable rs) :
    let v := Validation.ofGiven s g
    (∃ P, s.policy? v.policy = some P ∧ rs = (v.readable s).map (Validation.Source.report s P)) ∧
    ∃ code trail, run s words = (.exit code, trail) ∧
      (code = 1 ↔ (∃ path ∈ v.files, s.files.bytes? path = none) ∨
        ∃ r ∈ rs, r.isValid = false) ∧
      (code = 2 ↔ code ≠ 1 ∧ v.isStrict = true ∧
        ∃ r ∈ rs, ∃ o ∈ r.results, o.severity = .warning) ∧
      (code = 0 ↔ code ≠ 1 ∧ code ≠ 2) ∧
      ∀ (s' : Surroundings) (words' : List Text) (logger' : Logger) (g' : Given),
        Validates s' words' logger' g' →
        let v' := Validation.ofGiven s' g'
        s'.files = s.files → s'.reader = s.reader → v'.files = v.files → v'.policy = v.policy →
        v'.isStrict = v.isStrict →
        (∃ unreadable' rs', v'.ComesToVerdict s' logger' unreadable' rs') →
        ∃ trail', run s' words' = (.exit code, trail') := by
  intro v
  obtain ⟨P, hP, rfl, rfl⟩ := hverdict.exists_policy
  obtain ⟨trail, hrun⟩ := hverdict.run_eq
  refine ⟨⟨P, hP, rfl⟩, _, trail, h.run_eq hrun, ?_, ?_, ?_, ?_⟩
  · rw [Validation.exitCode_eq_one_iff, Validation.length_unreadable_ne_zero_iff]
  · exact Validation.exitCode_eq_two_iff s P v _ _
  · exact Validation.exitCode_eq_zero_iff _ _ _
  · intro s' words' logger' g' h' v' hfiles hreader hpaths hpolicy hstrict hverdict'
    obtain ⟨unreadable', rs', hverdict'⟩ := hverdict'
    obtain ⟨P', hP', rfl, rfl⟩ := hverdict'.exists_policy
    obtain ⟨trail', hrun'⟩ := hverdict'.run_eq
    obtain ⟨hreadable, hunreadable⟩ := Validation.readable_congr hfiles hpaths
    -- the two calls differ in the times of their reports, and in what they show
    have hsame : P' = P := by
      rw [Validation.policy?_congr hfiles hreader, hpolicy, hP] at hP'
      exact (Option.some.inj hP').symm
    subst hsame
    refine ⟨trail', ?_⟩
    rw [h'.run_eq hrun', hreadable, hunreadable,
      Validation.exitCode_congr s P' v _ _ s' hstrict]

/-- **Surroundings in which nothing takes time**, with some files. -/
def Surroundings.still (files : List (Path × List UInt8)) : Surroundings where
  files := FileTree.entry ⟨files, []⟩
  reader := Yaml.read
  terminal := .utf8
  policyVariable := none
  levelVariable := none
  elapsed _ := 0
  time := []

/-- Where no time passes, all times are zero. -/
theorem Validation.timed_still (files : List (Path × List UInt8)) (v : Validation) :
    v.Timed (.still files) where
  zero_le _ _ := (by decide : (0 : Float) ≤ 0)
  isFinite _ _ := (by decide : Binary64.isFinite 0 = true)
  isFinite_sum := by
    have hsum : ∀ fs : List Source,
        (fs.map fun f => (Surroundings.still files).elapsed f.path).foldl (· + ·) (0 : Float)
          = 0 := by
      -- a sum of zeros, one after the other
      intro fs
      induction fs with
      | nil => rfl
      | cons f fs ih =>
        have hzero : (0 : Float) + (Surroundings.still files).elapsed f.path = 0 := by
          change (0 : Float) + 0 = 0
          decide
        rw [List.map_cons, List.foldl_cons, hzero, ih]
    unfold Report.sum
    rw [hsum]
    decide

/-- The words of a call about an empty file and about one that is not there. -/
def missingWords : List Text := ["validate", "a.ifc", "b.ifc", "--strict"]

/-- The parameters of the call. -/
def missingGiven : Given := ⟨[("--strict", [])], ["a.ifc", "b.ifc"]⟩

theorem Program.validates_missing :
    Validates (.still [(Path.of "a.ifc", [])]) missingWords ⟨1, 30⟩ missingGiven := by
  refine ⟨⟨[], missingWords⟩, missingWords.tail, ?_, rfl, ?_, ?_⟩
  · decide +kernel
  · decide +kernel
  · decide +kernel

/-- The call ends with exit code 1, since a file is not there. -/
theorem Program.exit_of_verdict_missing :
    ∃ trail, run (.still [(Path.of "a.ifc", [])]) missingWords = (.exit 1, trail) := by
  have hnames : (Validation.ofGiven (.still [(Path.of "a.ifc", [])]) missingGiven).NamesPrinted
      (.still [(Path.of "a.ifc", [])]) Policy.bundled :=
    Validation.namesPrinted_of_isPlain Terminal.sound_utf8 (by decide +kernel) (by decide +kernel)
  obtain ⟨files, -, hleaves, -⟩ := Validation.leaves_perform rfl ⟨1, 30⟩
    (Validation.timed_still _ _) validates_missing.exists_format nofun
    ((Validation.parts_go_through_iff Terminal.sound_utf8 Policy.accepted_bundled
      (Validation.timed_still _ _)).mpr hnames)
  obtain ⟨trail, hperform, -, -⟩ := (hleaves (by exact nofun)).exists_run
  obtain ⟨-, code, trail, hrun, hone, -⟩ := exit_of_verdict validates_missing
    (Validation.comesToVerdict_of_sound Terminal.sound_utf8 hperform)
  obtain rfl := hone.mpr (.inl ⟨Path.of "b.ifc", by decide +kernel, by decide +kernel⟩)
  exact ⟨trail, hrun⟩

end StepCheck
