import StepCheck.Proofs.CommandLine.Batch
import StepCheck.Proofs.Report.Display
import StepCheck.Proofs.Report.Export

/-!
# What a batch leaves behind

A call that validates files prints one part after another: what is said of files that cannot be
read, a heading, the progress, the reports, and what they come to. The first part that the terminal
does not print ends it. What files hold is escaped, and what has no bytes is replaced, so that no
content stands in the way of another file. But names of files are printed almost as they are given.
A path with brackets in it may be markup, and one with surrogates has no bytes; the lines that name
them are the only ones that a terminal may fail on which prints what is in order.

* `Validation.problems`, `Validation.notes` — what is said of files that cannot be read, and of the
  file that reports were written to;
* `Validation.parts`, `Validation.printsInTurn_gather` — all that is printed before the verdict and
  before the export;
* `Validation.Timed` — what is asked of the times of a batch, with `Timed.exists_accuracy`;
* `Validation.NamesPrinted`, `Validation.parts_go_through_iff` — what has to be printed of names for
  all parts to go through;
* `Validation.leaves_exportReports` — what is written before anything is said of it.
-/

namespace StepCheck

open Markup

/-! ### Documents -/

namespace Report

/-- **There is a document** for reports if there are all percentages in it. -/
theorem exists_dumpAll {format : Text} {f : ExportFormat} (hf : ExportFormat.named? format = some f)
    {rs : List Report}
    (h : ∀ r ∈ rs, ∃ n, accuracy r.validationTime r.estimatedTime = .ok n)
    (hsum : ∃ n, accuracy (sum (rs.map validationTime)) (sum (rs.map estimatedTime)) = .ok n) :
    ∃ document, dumpAll format rs = .ok document := by
  have hpayload : ∀ r ∈ rs, ∃ d, r.payload = .ok d := by
    intro r hr
    obtain ⟨n, hn⟩ := h r hr
    exact ⟨_, payload_eq hn⟩
  have hrender : ∀ d, ∃ document, renderNamed format (.ok d) = .ok document := by
    intro d
    unfold renderNamed
    rw [hf]
    exact ⟨_, rfl⟩
  -- what is summed up is there, and so is what is said of each report
  have hbatch : ∃ document, dumpBatch format rs = .ok document := by
    obtain ⟨n, hn⟩ := hsum
    obtain ⟨ds, hds, -⟩ := Except.exists_mapM fun r hr =>
      (hpayload r hr).imp fun d hd => And.intro hd True.intro
    unfold dumpBatch batchPayload batchSummary
    dsimp only
    rw [hn, hds]
    exact hrender _
  unfold dumpAll
  split
  · next r =>
    obtain ⟨d, hd⟩ := hpayload r List.mem_cons_self
    unfold dump
    rw [hd]
    exact hrender d
  · exact hbatch

end Report

namespace Validation

variable {s : Surroundings} {P : Policy} {v : Validation}

/-! ### Lines about paths -/

/-- What is said of a file if it cannot be read. -/
def problem? (s : Surroundings) (path : Path) : Option Text :=
  match s.files.read path with
  | .ok _ => none
  | .error problem => some (Session.readNotice path problem)

/-- **What is said of the files that cannot be read**, in their order. -/
def problems (s : Surroundings) (v : Validation) : List Text := v.files.filterMap (problem? s)

/-- **What is said of the export**, if there are reports. -/
def notes (v : Validation) (rs : List Report) : List Text :=
  if rs.isEmpty then [] else v.exportPath.toList.map exportNotice

/-- A path of plain text is no markup where it is told of. -/
theorem prints_of_mem_notes (hc : s.terminal.Sound)
    (h : ∀ path ∈ v.exportPath, IsPlain path.shown) (rs : List Report) :
    ∀ t ∈ v.notes rs, s.terminal.Prints t := by
  intro t ht
  unfold notes at ht
  split at ht
  · cases ht
  · obtain ⟨path, hpath, rfl⟩ := List.mem_map.mp ht
    have hplain : IsPlain (" Report exported to " ++ path.shown) :=
      IsPlain.append (by decide) (h path (Option.mem_toList.mp hpath))
    have hproper := Severity.passed.proper_colour (.plain (by decide : IsPlain "✓"))
      (.plain hplain)
    rw [← List.append_assoc] at hproper
    exact hc.prints hproper

/-- **Every file that cannot be read is told of**, by its path and its problem. -/
theorem forall₂_problems (s : Surroundings) (v : Validation) :
    List.Forall₂ (fun path t => ∃ problem, s.files.read path = .error problem ∧
      t = "[red]Cannot read " ++ path.shown ++ ": " ++ Markup.escape (problem.message path)
        ++ "[/red]") (v.unreadable s) (v.problems s) := by
  unfold problems unreadable
  induction v.files with
  | nil => exact .nil
  | cons path paths ih =>
    -- a file has a problem just if it has no bytes
    cases h : s.files.read path with
    | ok bytes =>
      have hsource : (source? s path).isNone = false := by
        unfold source? Files.bytes?
        rw [h]
        rfl
      have hproblem : problem? s path = none := by
        unfold problem?
        rw [h]
      rw [List.filter_cons_of_neg (by rw [hsource]; exact Bool.false_ne_true),
        List.filterMap_cons_none hproblem]
      exact ih
    | error problem =>
      have hsource : (source? s path).isNone = true := by
        unfold source? Files.bytes?
        rw [h]
        rfl
      have hproblem : problem? s path = some (Session.readNotice path problem) := by
        unfold problem?
        rw [h]
      rw [List.filter_cons_of_pos (by rw [hsource]), List.filterMap_cons_some hproblem]
      exact .cons ⟨problem, h, rfl⟩ ih

/-! ### What is printed -/

/-- The line over the reports. -/
def heading : Text := "\n[bold cyan]IFC Validation[/bold cyan]"

/-- **What is shown** of the report of a file. -/
def view (v : Validation) (f : Source) : View where
  showsPassed := v.showsPassed
  byCategory := v.byCategory
  content := if v.showsSnippets then some f.content else none

/-- The rows about files that are done, if they are asked for. -/
def announcement (c : Terminal) (v : Validation) (sources : List Source) : Report.Showing :=
  if v.showsProgress then
    if sources.isEmpty then Console.emit [[]]
    else Console.printGrid c ViewFailure.console (progress sources)
  else pure ()

/-- What the files come to, if there are several. -/
def total (s : Surroundings) (P : Policy) (v : Validation) : Report.Showing :=
  if 1 < v.files.length then
    Report.displayBatch s.terminal ((v.readable s).map (Source.report s P)) (v.unreadable s).length
  else pure ()

/-- **The parts of what is printed about files**: what is said of each that cannot be read, then, in
the same order, the report of each that can, and what they come to. -/
def parts (s : Surroundings) (P : Policy) (v : Validation) : List Report.Showing :=
  (v.problems s).map (Report.say s.terminal)
    ++ [Report.say s.terminal heading, v.announcement s.terminal (v.readable s)]
    ++ (v.readable s).map (fun f => Report.display s.terminal (v.view f) (f.report s P))
    ++ [v.total s P]

/-- **All that is printed about files**, if nothing fails. -/
def transcript (s : Surroundings) (P : Policy) (v : Validation) : List Text :=
  (v.parts s P).flatMap fun part => part.printed.2

/-! ### Reading -/

/-- The policy is read without a word. -/
theorem leaves_policy {path : Option Path} (h : s.policy? path = some P) (logger : Logger) :
    Session.Leaves (Session.policy s logger path) [] [] (.ok P) := by
  unfold Session.policy
  cases path with
  | none =>
    cases h
    exact (Session.leaves_log s logger _).andThen (.pure _)
  | some path =>
    obtain ⟨bytes, hread, hload⟩ := Surroundings.exists_of_policy? h
    dsimp only
    rw [hread]
    dsimp only
    rw [hload]
    exact (Session.leaves_log s logger _).andThen (.pure _)

/-- The part of a call about a path. -/
def look (s : Surroundings) (logger : Logger) (path : Path) : Session (Option Source) := do
  return (← Session.content s logger true path).map (Source.mk path)

/-- **A path is looked at**: its file is read, or what is said of it is printed. -/
theorem printsInTurn_look (s : Surroundings) (logger : Logger) (path : Path) :
    Session.PrintsInTurn (look s logger path)
      ((problem? s path).toList.map (Report.say s.terminal)) (source? s path) := by
  unfold look Session.content problem? source? Files.bytes?
  have hlog : ∀ ls, Session.PrintsInTurn (Session.log s logger ls) [] () := fun ls =>
    .of_leaves (Session.leaves_log s logger ls)
  cases s.files.read path with
  | ok bytes => exact ((hlog _).andThen (.pure _)).bind (.pure _)
  | error problem =>
    have hsay := Session.PrintsInTurn.printing
      (Report.say s.terminal (Session.readNotice path problem))
    exact ((hlog _).andThen (hsay.andThen (.pure none))).bind (.pure none)

/-- **All files are read**, and what is said of the others is printed. -/
theorem printsInTurn_sources (s : Surroundings) (logger : Logger) (v : Validation) :
    Session.PrintsInTurn (v.sources s logger) ((v.problems s).map (Report.say s.terminal))
      (v.readable s) := by
  have hlook : Session.PrintsInTurn (v.files.mapM (look s logger)) _ _ :=
    .mapM fun path _ => printsInTurn_look s logger path
  have hsources : Session.PrintsInTurn (v.sources s logger) (_ ++ [])
      ((v.files.map (source? s)).filterMap id) := hlook.bind (.pure _)
  have hparts : (v.files.flatMap fun path => (problem? s path).toList.map (Report.say s.terminal))
      = (v.problems s).map (Report.say s.terminal) := by
    unfold problems
    rw [List.filterMap_eq_flatMap_toList, List.map_flatMap]
  rwa [hparts, List.append_nil, List.filterMap_map] at hsources

/-! ### Reports -/

/-- **What is asked of the times** that validations take: none is negative, and together they are
finite. -/
structure Timed (s : Surroundings) (v : Validation) : Prop where
  zero_le : ∀ f ∈ v.readable s, 0 ≤ s.elapsed f.path
  isFinite : ∀ f ∈ v.readable s, Binary64.isFinite (s.elapsed f.path) = true
  isFinite_sum : Binary64.isFinite
    (Report.sum ((v.readable s).map fun f => s.elapsed f.path)) = true

/-- There is a percentage for every report. -/
theorem Timed.exists_accuracy (h : v.Timed s) (hP : P.Accepted) {f : Source}
    (hf : f ∈ v.readable s) :
    ∃ n, accuracy (f.report s P).validationTime (f.report s P).estimatedTime = .ok n := by
  obtain ⟨n, hn, -⟩ := StepCheck.exists_accuracy (h.zero_le f hf)
    (hP.sound.zero_le_estimate f.content) (.inl (h.isFinite f hf))
  exact ⟨n, hn⟩

/-- There is a percentage for all reports together. -/
theorem Timed.exists_accuracy_sum (h : v.Timed s) (hP : P.Accepted) :
    let rs := (v.readable s).map (Source.report s P)
    ∃ n, accuracy (Report.sum (rs.map Report.validationTime))
      (Report.sum (rs.map Report.estimatedTime)) = .ok n := by
  intro rs
  have hactual : rs.map Report.validationTime = (v.readable s).map fun f => s.elapsed f.path := by
    rw [List.map_map]
    rfl
  have hestimated : ∀ x ∈ rs.map Report.estimatedTime, 0 ≤ x := by
    rw [List.map_map]
    exact List.forall_mem_map.mpr fun f _ => hP.sound.zero_le_estimate f.content
  rw [hactual]
  -- estimates may add up to infinity, but the times that were taken do not
  obtain ⟨n, hn, -⟩ := StepCheck.exists_accuracy
    (Report.zero_le_sum (List.forall_mem_map.mpr h.zero_le))
    (Report.zero_le_sum hestimated) (.inl h.isFinite_sum)
  exact ⟨n, hn⟩

/-- A report is made without a word. -/
theorem printsInTurn_reportOf (hP : P.Accepted) (logger : Logger) {f : Source}
    (hs : 0 ≤ s.elapsed f.path) :
    Session.PrintsInTurn (reportOf s logger P f) [] (f.report s P) := by
  unfold reportOf
  dsimp only
  rw [← runOf, result_runOf hP hs]
  exact .of_leaves ((Session.leaves_log s logger _).andThen (.pure _))

/-- The announcement is the progress, if that is asked for and there are files. -/
theorem printsInTurn_announce (s : Surroundings) (v : Validation) (sources : List Source) :
    Session.PrintsInTurn (v.announce s sources) [v.announcement s.terminal sources] () := by
  have hprinting := Session.PrintsInTurn.printing (v.announcement s.terminal sources)
  unfold announce showProgress
  unfold announcement at hprinting ⊢
  split
  · next hprogress =>
    rw [if_pos hprogress] at hprinting
    split
    · next hempty =>
      rw [if_pos hempty] at hprinting
      exact Session.leaves_out [[]]
    · next hempty =>
      rw [if_neg hempty] at hprinting
      exact hprinting
  · exact Session.Leaves.pure ()

/-- Each report is shown in its turn. -/
theorem printsInTurn_showReports (s : Surroundings) (P : Policy) (v : Validation) :
    Session.PrintsInTurn (v.showReports s (v.readable s) ((v.readable s).map (Source.report s P)))
      ((v.readable s).map fun f => Report.display s.terminal (v.view f) (f.report s P)) () := by
  have hshow : Session.PrintsInTurn
      (((v.readable s).map fun f => (f, f.report s P)).forM fun p => v.showReport s p.1 p.2)
      (((v.readable s).map fun f => (f, f.report s P)).flatMap fun p =>
        [Report.display s.terminal (v.view p.1) p.2]) () :=
    Session.PrintsInTurn.forM fun p _ => .printing _
  rw [List.flatMap_map, ← List.map_eq_flatMap] at hshow
  unfold showReports
  rwa [← List.map_prod_left_eq_zip]

/-- The table about all files is shown if there is one. -/
theorem printsInTurn_sumUp (s : Surroundings) (P : Policy) (v : Validation) :
    Session.PrintsInTurn
      (v.sumUp s (v.unreadable s).length ((v.readable s).map (Source.report s P)))
      [v.total s P] () := by
  have hprinting := Session.PrintsInTurn.printing (v.total s P)
  unfold sumUp
  unfold total at hprinting ⊢
  split
  · next hseveral =>
    rw [if_pos hseveral] at hprinting
    exact hprinting
  · exact Session.Leaves.pure ()

/-- **Files are read, validated and shown** part by part. -/
theorem printsInTurn_gather (hpolicy : s.policy? v.policy = some P) (logger : Logger)
    (htimes : ∀ f ∈ v.readable s, 0 ≤ s.elapsed f.path) :
    Session.PrintsInTurn (v.gather s logger) (v.parts s P)
      ((v.unreadable s).length, (v.readable s).map (Source.report s P)) := by
  have hP := Surroundings.accepted_of_policy? hpolicy
  -- all reports are made before the first one is shown
  have hreports : Session.PrintsInTurn ((v.readable s).mapM (reportOf s logger P)) []
      ((v.readable s).map (Source.report s P)) := by
    have hreports := Session.PrintsInTurn.mapM fun f hf =>
      printsInTurn_reportOf hP logger (htimes f hf)
    rwa [List.flatMap_eq_nil_iff.mpr fun _ _ => rfl] at hreports
  have hunreadable : v.files.length - (v.readable s).length = (v.unreadable s).length := by
    have hlength := v.length_readable_add s
    omega
  have hsum := printsInTurn_sumUp s P v
  rw [← hunreadable] at hsum ⊢
  have hshow : Session.PrintsInTurn
      ((v.readable s).mapM (reportOf s logger P) >>= fun rs => do
        v.showReports s (v.readable s) rs
        v.sumUp s (v.files.length - (v.readable s).length) rs
        return (v.files.length - (v.readable s).length, rs)) _ _ :=
    hreports.bind ((printsInTurn_showReports s P v).andThen (hsum.andThen (.pure _)))
  have hgather : Session.PrintsInTurn (v.gather s logger) _ _ :=
    (Session.PrintsInTurn.of_leaves (leaves_policy hpolicy logger)).bind <|
      (printsInTurn_sources s logger v).bind <|
        (Session.PrintsInTurn.printing (Report.say s.terminal heading)).andThen
          ((printsInTurn_announce s v (v.readable s)).andThen hshow)
  unfold parts
  simpa only [List.nil_append, List.append_nil, List.append_assoc, List.cons_append] using hgather

/-! ### Parts that go through -/

/-- **What names files is printed**: what is said of those that cannot be read, the progress, and
the lines over the reports of the others. -/
structure NamesPrinted (s : Surroundings) (P : Policy) (v : Validation) : Prop where
  problems : ∀ t ∈ v.problems s, s.terminal.Prints t
  progress : v.showsProgress = true → v.readable s ≠ [] →
    ∃ ls, s.terminal.grid (progress (v.readable s)) = .ok ls
  headlines : ∀ f ∈ v.readable s, s.terminal.Prints (f.report s P).headline

/-- The announcement goes through unless its progress is not printed. -/
theorem printed_announcement_iff {c : Terminal} {sources : List Source} :
    (v.announcement c sources).printed.1 = .ok () ↔
      (v.showsProgress = true → sources ≠ [] → ∃ ls, c.grid (progress sources) = .ok ls) := by
  unfold announcement
  by_cases hprogress : v.showsProgress = true
  · rw [if_pos hprogress, imp_iff_right hprogress]
    by_cases hempty : sources.isEmpty = true
    · rw [if_pos hempty]
      exact iff_of_true rfl fun hne => absurd (List.isEmpty_iff.mp hempty) hne
    · rw [if_neg hempty, imp_iff_right (by rwa [List.isEmpty_iff] at hempty)]
      -- there is a grid, and the terminal decides
      cases hgrid : c.grid (progress sources) with
      | ok ls =>
        have hprinted := (Console.writes_emitMade hgrid ViewFailure.console).printed
        exact iff_of_true (congrArg Prod.fst hprinted) ⟨ls, rfl⟩
      | error e =>
        have hprinted := (Console.writes_emitMade_error hgrid ViewFailure.console).printed
        refine iff_of_false (fun h => ?_) nofun
        have hfst := congrArg Prod.fst hprinted
        unfold Console.printGrid at h
        rw [hfst] at h
        cases h
  · rw [if_neg hprogress]
    exact iff_of_true rfl fun h => absurd h hprogress

/-- The heading is a fixed text. -/
theorem proper_heading : Proper heading :=
  .before (s := "\n") (by decide)
    (.inStyle "bold cyan" (s := "IFC Validation") (by decide) (.plain (by decide)))

/-- **All parts go through** just if what names files is printed. -/
theorem parts_go_through_iff (hc : s.terminal.Sound) (hP : P.Accepted) (htimes : v.Timed s) :
    (∀ part ∈ v.parts s P, part.printed.1 = .ok ()) ↔ v.NamesPrinted s P := by
  have hheading : (Report.say s.terminal heading).printed.1 = .ok () :=
    Report.printed_say_iff.mpr (hc.prints proper_heading)
  have htotal : (v.total s P).printed.1 = .ok () := by
    unfold total
    split
    · obtain ⟨n, hn⟩ := htimes.exists_accuracy_sum hP
      exact (Report.completes_displayBatch hc _ hn).printed
    · rfl
  -- of what is shown of a report only the headline holds a text that is not escaped or not made
  -- writable
  have hdisplay : ∀ f ∈ v.readable s,
      ((Report.display s.terminal (v.view f) (f.report s P)).printed.1 = .ok () ↔
        s.terminal.Prints (f.report s P).headline) := by
    intro f hf
    obtain ⟨n, hn⟩ := htimes.exists_accuracy hP hf
    exact Report.printed_display_iff hc (v.view f)
      (Report.rulesWritable_outcomes P (Layout.of f.content)) hn
  unfold parts
  simp only [List.forall_mem_append, List.forall_mem_cons, List.forall_mem_map, List.not_mem_nil,
    false_imp_iff, implies_true, and_true, hheading, htotal, true_and, Report.printed_say_iff,
    printed_announcement_iff]
  constructor
  · rintro ⟨⟨hproblems, hprogress⟩, hreports⟩
    exact ⟨hproblems, hprogress, fun f hf => (hdisplay f hf).mp (hreports f hf)⟩
  · rintro ⟨hproblems, hprogress, hheadlines⟩
    exact ⟨⟨hproblems, hprogress⟩, fun f hf => (hdisplay f hf).mpr (hheadlines f hf)⟩

/-- **Names of plain text** stand in nobody's way. -/
theorem namesPrinted_of_isPlain (hc : s.terminal.Sound)
    (hproblems : ∀ t ∈ v.problems s, s.terminal.Prints t)
    (hnames : ∀ f ∈ v.readable s, IsPlain f.path.name) : v.NamesPrinted s P where
  problems := hproblems
  progress _ _ := by
    refine hc.exists_grid fun row hrow => ?_
    obtain ⟨f, hf, rfl⟩ := List.mem_map.mp hrow
    simp only [List.forall_mem_cons, List.not_mem_nil, false_imp_iff, implies_true, and_true]
    exact ⟨.plain (by decide), .plain (hnames f hf),
      .plain (Text.isPlain_replicate (by decide) barWidth), .plain (by decide),
      .plain (by decide)⟩
  headlines f hf := hc.prints (Report.proper_headline (hnames f hf).isWritable)

/-! ### Exports -/

/-- **What is written of reports**: nothing if no file is named or there are no reports, and else
one document, which is that of the report if there is only one. -/
def Exports (v : Validation) (rs : List Report) (files : List (Path × Text)) : Prop :=
  match v.exportPath, rs with
  | none, _ => files = []
  | some _, [] => files = []
  | some path, [r] => ∃ document, r.dump v.format = .ok document ∧ files = [(path, document)]
  | some path, rs => ∃ document, Report.dumpBatch v.format rs = .ok document ∧
      files = [(path, document)]

/-- The lines of a text that is printed. -/
def said (c : Terminal) (t : Text) : List Text := (Report.say c t).printed.2

/-- **Reports are written** before anything is said of it. -/
theorem leaves_exportReports {rs : List Report}
    (hdocument : ∃ document, Report.dumpAll v.format rs = .ok document)
    (hwritable : ∀ path, v.exportPath = some path → s.files.writeProblem? path = none) :
    ∃ files, v.Exports rs files ∧
      ((∀ t ∈ v.notes rs, s.terminal.Prints t) → Session.Leaves (v.exportReports s rs)
        ((v.notes rs).flatMap (said s.terminal)) files (.ok ())) ∧
      (¬ (∀ t ∈ v.notes rs, s.terminal.Prints t) → ∃ e, Session.Leaves (v.exportReports s rs) []
        files (.error (.failure (.view e)))) := by
  obtain ⟨document, hdocument⟩ := hdocument
  unfold Exports exportReports notes
  cases hpath : v.exportPath with
  | none =>
    refine ⟨[], rfl, fun _ => ?_, fun h => absurd (fun t ht => ?_) h⟩
    · cases rs <;> exact .pure ()
    · cases rs <;> cases ht
  | some path =>
    cases rs with
    | nil => exact ⟨[], rfl, fun _ => .pure (), fun h => absurd (List.forall_mem_nil _) h⟩
    | cons r rs =>
      have hexport : v.writeReports s path (r :: rs) = (modify fun t =>
          { t with written := t.written ++ [(path, document)] }) >>= fun _ =>
            Session.say s (exportNotice path) := by
        unfold writeReports
        rw [hdocument]
        dsimp only
        rw [hwritable path hpath]
      -- the file is there before the line about it, so that only what follows can be lost
      have hwrite := Session.leaves_write path document
      have hsay := Session.PrintsInTurn.printing (Report.say s.terminal (exportNotice path))
      refine ⟨[(path, document)], ?_, fun h => ?_, fun h => ?_⟩
      · cases rs with
        | nil => exact ⟨document, hdocument, rfl⟩
        | cons r' rs => exact ⟨document, hdocument, rfl⟩
      · have hprinted := Report.printed_say_iff.mpr (h _ List.mem_cons_self)
        have hlines := Report.inTurn_of_ok (List.forall_mem_singleton.mpr hprinted)
        have hshown := hsay.leaves (congrArg Prod.fst hlines)
        rw [hlines] at hshown
        change Session.Leaves (v.writeReports s path (r :: rs)) _ _ _
        rw [hexport]
        exact hwrite.andThen hshown
      · obtain ⟨e, he⟩ := Report.exists_writes_say fun hprints =>
          h (List.forall_mem_singleton.mpr hprints)
        have hlines := Report.inTurn_cons_of_error (congrArg Prod.fst he.printed) []
        have hfailed := hsay.leaves_error (congrArg Prod.fst hlines)
        rw [hlines, he.printed] at hfailed
        change ∃ e, Session.Leaves (v.writeReports s path (r :: rs)) _ _ _
        rw [hexport]
        exact ⟨_, hwrite.andThen hfailed⟩

/-- There is a document for the reports of a batch. -/
theorem Timed.exists_dumpAll (h : v.Timed s) (hP : P.Accepted)
    (hformat : ∃ f, ExportFormat.named? v.format = some f) :
    ∃ document,
      Report.dumpAll v.format ((v.readable s).map (Source.report s P)) = .ok document := by
  obtain ⟨f, hf⟩ := hformat
  refine Report.exists_dumpAll hf ?_ (h.exists_accuracy_sum hP)
  exact List.forall_mem_map.mpr fun f hf => h.exists_accuracy hP hf

section Perform

variable (hpolicy : s.policy? v.policy = some P) (logger : Logger) (htimes : v.Timed s)

include hpolicy htimes

/-- **If not all parts go through**, the call ends with the first one that does not. -/
theorem leaves_perform_error {e : ViewFailure}
    (h : (Report.inTurn (v.parts s P)).1 = .error e) :
    Session.Leaves (v.perform s logger) (Report.inTurn (v.parts s P)).2 []
      (.error (.failure (.view e))) :=
  ((printsInTurn_gather hpolicy logger htimes.zero_le).leaves_error h).bind_error _

variable (hformat : ∃ f, ExportFormat.named? v.format = some f)
  (hwritable : ∀ path, v.exportPath = some path → s.files.writeProblem? path = none)
  (h : ∀ part ∈ v.parts s P, part.printed.1 = .ok ())

include hformat hwritable h

/-- **All is done up to the verdict**, unless what is said of the export is not printed. Then the
call ends, and all else has been done. -/
theorem leaves_perform :
    let rs := (v.readable s).map (Source.report s P)
    ∃ files, v.Exports rs files ∧
      ((∀ t ∈ v.notes rs, s.terminal.Prints t) → Session.Leaves (v.perform s logger)
        (v.transcript s P ++ (v.notes rs).flatMap (said s.terminal)) files
        (.ok ((v.unreadable s).length, rs))) ∧
      (¬ (∀ t ∈ v.notes rs, s.terminal.Prints t) → ∃ e, Session.Leaves (v.perform s logger)
        (v.transcript s P) files (.error (.failure (.view e)))) := by
  intro rs
  have hlines := Report.inTurn_of_ok h
  have hgather : Session.Leaves (v.gather s logger) (v.transcript s P) []
      (.ok ((v.unreadable s).length, rs)) := by
    have hgather := (printsInTurn_gather hpolicy logger htimes.zero_le).leaves
      (congrArg Prod.fst hlines)
    rwa [hlines] at hgather
  -- the times are finite, so that there is a document
  have hdocument := htimes.exists_dumpAll (Surroundings.accepted_of_policy? hpolicy) hformat
  obtain ⟨files, hfiles, hshown, hfailed⟩ := leaves_exportReports hdocument hwritable
  refine ⟨files, hfiles, fun hnotes => ?_, fun hnotes => ?_⟩
  · have hperform : Session.Leaves (v.perform s logger) _ _ _ :=
      hgather.bind ((hshown hnotes).andThen (.pure ((v.unreadable s).length, rs)))
    exact hperform.of_eq (by rw [List.append_nil]) (by rw [List.append_nil, List.nil_append])
  · obtain ⟨e, he⟩ := hfailed hnotes
    have hperform : Session.Leaves (v.perform s logger) _ _ _ := hgather.bind (he.bind_error _)
    exact ⟨e, hperform.of_eq (List.append_nil _) (List.nil_append _)⟩

end Perform

end Validation

end StepCheck
