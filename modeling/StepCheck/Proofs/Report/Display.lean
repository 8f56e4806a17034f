import StepCheck.Proofs.Check.Outcomes
import StepCheck.Proofs.Console.Terminal
import StepCheck.Proofs.Console.Writing
import StepCheck.Report.View

/-!
# Reports can be shown

What a report says comes from files and is escaped wherever it is printed, and what has no bytes is
replaced; all else on the console is fixed, or numbers. The one text that is escaped but not
replaced is the name of the file, in the first line. So a report is shown completely on any terminal
that prints this line, and can be expected to print what is in order, except that there may be no
percentage for the last line.

* `Binary64.isPlain_fixed` — numbers are no markup;
* `Report.proper_findingsTable`, `Report.proper_summaryTable` — tables that are in order;
* `Report.opening`, `Report.findings`, `Report.closing` — the parts of a report, with
  `Report.display_eq`;
* `Report.printed_display_iff`, `Report.completes_displayBatch` — when a report, and a batch of
  them, are shown completely.
-/

namespace StepCheck

open Markup Console

/-! ### Numerals -/

namespace Binary64

/-- A sign is plain. -/
private theorem isPlain_sign (negative : Bool) :
    IsPlain (Text.ofString (if negative then "-" else "")) := by
  cases negative <;> decide

/-- Digits with a sign before them and a point among them. -/
private theorem isPlain_of_digits (negative : Bool) (places : Nat) {digits : Text}
    (h : ∀ c ∈ digits, c.isDigit = true) :
    IsPlain (Text.ofString (if negative then "-" else "") ++ digits.take (digits.length - places)
      ++ (if places = 0 then []
        else Text.ofString "." ++ digits.drop (digits.length - places))) := by
  have htake : IsPlain (digits.take (digits.length - places)) :=
    Text.isPlain_of_isDigit fun c hc => h c (List.mem_of_mem_take hc)
  have hdrop : IsPlain (digits.drop (digits.length - places)) :=
    Text.isPlain_of_isDigit fun c hc => h c (List.mem_of_mem_drop hc)
  refine ((isPlain_sign negative).append htake).append ?_
  split
  · decide
  · exact IsPlain.append (by decide) hdrop

/-- A numeral with a fixed number of places is made of digits, a sign and a point. -/
theorem isPlain_fixed (places : Nat) (x : Float) : IsPlain (fixed places x) := by
  unfold fixed
  cases of x with
  | notANumber => exact (by decide : IsPlain "nan")
  | infinite negative => exact (isPlain_sign negative).append (by decide)
  | finite negative mantissa exponent =>
    refine isPlain_of_digits negative places fun c hc => ?_
    rcases List.mem_append.mp hc with hc | hc
    · rw [List.eq_of_mem_replicate hc]
      rfl
    · exact Text.isDigit_of_mem_ofNat hc

end Binary64

/-! ### Texts in colours -/

namespace Severity

/-- Something in the colour of a severity, and what is behind it. -/
theorem proper_colour (s : Severity) {mark t : Text} (hmark : Proper mark) (ht : Proper t) :
    Proper ("[" ++ s.colour ++ "]" ++ mark ++ "[/" ++ s.colour ++ "]" ++ t) :=
  .styled s.colour (by cases s <;> decide) hmark ht

/-- The word for a severity, and what is behind it. -/
theorem proper_coloured_append (s : Severity) {t : Text} (ht : Proper t) :
    Proper (s.coloured ++ t) :=
  s.proper_colour (.plain (by cases s <;> decide)) ht

/-- The name of a severity is in its colour. -/
theorem proper_coloured (s : Severity) : Proper s.coloured := by
  have h := s.proper_coloured_append (.plain (by decide : IsPlain []))
  rwa [List.append_nil] at h

end Severity

/-- Codes are plain. -/
theorem Code.isPlain_wire (c : Code) : IsPlain c.wire := by
  cases c <;> decide

/-! ### Tables -/

namespace Report

/-- What is escaped and replaced is in order, whatever it is. -/
theorem proper_literally (t : Text) : Proper (literally t) :=
  .escaped (Text.isWritable_printable t)

/-- **Outcomes whose rules can be written.** -/
def RulesWritable (os : List Outcome) : Prop :=
  ∀ o ∈ os, ∀ rule ∈ o.rule, Text.IsWritable rule

/-- All that the checks find is about rules of their own, which have fixed names. -/
theorem rulesWritable_outcomes (P : Policy) (l : Layout) :
    RulesWritable (CheckGroup.all.flatMap (CheckGroup.outcomes P l)) := by
  have hnames : ∀ rule : Rule, rule.name.IsWritable := by
    have hall : ∀ rule ∈ Rule.all, rule.name.IsWritable := by decide +kernel
    exact fun rule => hall rule rule.mem_all
  intro o ho rule hrule
  obtain ⟨group, f, -, rfl⟩ := CheckGroup.exists_of_mem_outcomes ho
  rw [Finding.outcome_rule] at hrule
  cases hrule
  exact hnames f.rule

/-- **Rows about outcomes** are in order, whatever these say. -/
theorem proper_findingsTable {title : Text} (h : IsPlain title) {os : List Outcome}
    (hos : RulesWritable os) : (findingsTable title os).Proper where
  title := .plain h
  cells := by
    intro row hrow
    obtain ⟨o, ho, rfl⟩ := List.mem_map.mp hrow
    simp only [List.forall_mem_cons, List.not_mem_nil, false_imp_iff, implies_true, and_true]
    refine ⟨o.severity.proper_coloured, .plain (Code.isPlain_wire o.code), ?_, ?_,
      proper_literally _⟩
    · -- a name of a rule that is not of the program is escaped, and can be written
      unfold ruleText
      split
      · next rule hrule =>
        split
        · exact .plain (by decide)
        · exact .escaped (hos o ho rule hrule)
      · exact .plain (by decide)
    · unfold lineText
      split
      · exact .plain (Text.isPlain_ofInt _)
      · exact .plain (by decide)

/-- A label with a plain value is in order. -/
theorem proper_of_mem_row {label : String} {value : Text} (hlabel : IsPlain (Text.ofString label))
    (hvalue : IsPlain value) : ∀ cell ∈ row label value, Proper cell :=
  List.forall_mem_cons.mpr ⟨.plain hlabel, List.forall_mem_cons.mpr ⟨.plain hvalue, nofun⟩⟩

/-- The numbers of outcomes are in order. -/
theorem proper_summaryTable (s : Summary) : (summaryTable s).Proper where
  title := .plain (by decide : IsPlain "Validation Summary")
  cells := by
    have hrow : ∀ (label : String) (i : Int), IsPlain (Text.ofString label) →
        ∀ cell ∈ row label (Text.ofInt i), Proper cell :=
      fun _ i hlabel => proper_of_mem_row hlabel (Text.isPlain_ofInt i)
    unfold summaryTable
    refine List.forall_mem_append.mpr ⟨?_, ?_⟩
    · simp only [List.forall_mem_cons, List.not_mem_nil, false_imp_iff, implies_true, and_true]
      exact ⟨hrow _ _ (by decide), hrow _ _ (by decide), hrow _ _ (by decide)⟩
    · split
      · exact nofun
      · exact List.forall_mem_singleton.mpr (hrow _ _ (by decide))

/-! ### Printing that goes through -/

/-- **Printing that goes through** to its end. -/
def Completes (p : Showing) : Prop := ∃ d, Writes p d (.ok ())

theorem Completes.pure : Completes (Pure.pure ()) := ⟨_, Writes.pure ()⟩

/-- One thing that goes through after the other goes through. -/
theorem Completes.andThen {p q : Showing} (hp : Completes p) (hq : Completes q) :
    Completes (p >>= fun _ => q) := by
  obtain ⟨d, hp⟩ := hp
  obtain ⟨d', hq⟩ := hq
  exact ⟨d ++ d', hp.andThen hq⟩

/-- Any number of things that go through go through one after the other. -/
theorem completes_forM {α : Type} {f : α → Showing} {xs : List α}
    (h : ∀ x ∈ xs, Completes (f x)) : Completes (xs.forM f) := by
  induction xs with
  | nil => exact Completes.pure
  | cons x xs ih =>
    exact (h x List.mem_cons_self).andThen (ih fun y hy => h y (List.mem_cons_of_mem x hy))

/-- What goes through has no failure for an answer. -/
theorem Completes.printed {p : Showing} (h : Completes p) : p.printed.1 = .ok () := by
  obtain ⟨d, hd⟩ := h
  rw [hd.printed]

variable {c : Terminal}

/-- A line goes through if the terminal prints it. -/
theorem completes_say {t : Text} (h : c.Prints t) : Completes (say c t) := by
  obtain ⟨ls, hls⟩ := h
  exact ⟨_, writes_emitMade hls ViewFailure.console⟩

/-- What the terminal does not print ends the program. -/
theorem exists_writes_say {t : Text} (h : ¬ c.Prints t) :
    ∃ e, Writes (say c t) #[] (.error (.console e)) := by
  cases htext : c.text t with
  | ok ls => exact absurd ⟨ls, htext⟩ h
  | error e => exact ⟨e, writes_emitMade_error htext ViewFailure.console⟩

/-- A line goes through just if the terminal prints it. -/
theorem printed_say_iff {t : Text} : (say c t).printed.1 = .ok () ↔ c.Prints t := by
  refine ⟨fun hprinted => ?_, fun h => (completes_say h).printed⟩
  by_contra h
  obtain ⟨e, he⟩ := exists_writes_say h
  rw [he.printed] at hprinted
  cases hprinted

/-- A table that the terminal prints goes through. -/
theorem completes_printTable {t : Table} (h : ∃ ls, c.table t = .ok ls) :
    Completes (printTable c .console t) := by
  obtain ⟨ls, hls⟩ := h
  exact ⟨_, writes_emitMade hls ViewFailure.console⟩

/-! ### The parts of a report -/

/-- The verdict, beside the name of the file, and the numbers of outcomes. -/
def opening (c : Terminal) (r : Report) : Showing := do
  say c r.headline
  printTable c .console (summaryTable r.summary)

/-- The outcomes, in one table or in one for each category. -/
def findings (c : Terminal) (v : View) (r : Report) : Showing :=
  let shown := r.results.filter (isShown v)
  if shown.isEmpty then say c "[green]✓ No issues found[/green]"
  else if v.byCategory then showCategories c v r
  else printTable c .console (findingsTable "Findings" shown)

/-- The lines of the file that outcomes name, if the content is given. -/
def excerpts (c : Terminal) (content : Option Text) (r : Report) : Showing :=
  match content with
  | some content => showSnippets c r content
  | none => pure ()

/-- The times of the run, with the percentage of their agreement. -/
def times (c : Terminal) (r : Report) : Showing := do
  let close ← accuracyText r.validationTime r.estimatedTime
  say c ("Validated in " ++ seconds 3 r.validationTime ++ " (estimated "
    ++ seconds 2 r.estimatedTime ++ ", accuracy " ++ close ++ ")")

/-- **A report is shown** in four parts. -/
theorem display_eq (c : Terminal) (v : View) (r : Report) :
    display c v r = opening c r >>= fun _ => findings c v r >>= fun _ =>
      excerpts c v.content r >>= fun _ => times c r := by
  unfold display opening findings excerpts
  rw [bind_assoc]
  dsimp only
  split
  · cases v.content <;> rfl
  · split
    · cases v.content <;> rfl
    · cases v.content <;> rfl

/-- **The name of the file** may be anything that can be written. -/
theorem proper_headline {r : Report} (h : r.filename.IsWritable) : Proper r.headline := by
  have hverdict : Proper (verdict r.isValid) := by
    unfold verdict
    cases r.isValid
    · exact .inStyle "red" (s := "✗ INVALID") (by decide) (.plain (by decide +kernel))
    · exact .inStyle "green" (s := "✓ VALID") (by decide) (.plain (by decide +kernel))
  -- the name is escaped and in a style of its own, with the verdict behind it
  have hname : Proper ("[" ++ "bold cyan" ++ "]" ++ Markup.escape r.filename ++ "[/" ++ "bold cyan"
      ++ "]" ++ (" " ++ verdict r.isValid)) :=
    .styled "bold cyan" (by decide) (.escaped h) (.before (by decide) hverdict)
  have htext : r.headline = "\n" ++ ("[" ++ "bold cyan" ++ "]" ++ Markup.escape r.filename ++ "[/"
      ++ "bold cyan" ++ "]" ++ (" " ++ verdict r.isValid)) := by
    unfold headline
    simp only [List.append_assoc]
    rfl
  rw [htext]
  exact .before (by decide) hname

/-- A title with the number of outcomes below it. -/
theorem isPlain_categoryTitle (c : Category) (n : Nat) :
    IsPlain (c.heading ++ " (" ++ Text.ofNat n ++ ")") := by
  have hheading : IsPlain (c.heading ++ " (") := by cases c <;> decide
  exact (hheading.append (Text.isPlain_ofNat n)).append (by decide)

/-- **A line of the file** may be anything. -/
theorem proper_snippetLine (l : SnippetLine) : Proper (snippetLine l) := by
  have hfront : IsPlain (" " ++ Text.ofString (if l.flagged then ">" else " ") ++ " "
      ++ (Text.ofInt l.number).padLeft 5 ++ " | ") := by
    have hmark : IsPlain (" " ++ Text.ofString (if l.flagged then ">" else " ") ++ " ") := by
      cases l.flagged <;> decide
    exact (hmark.append (Text.isPlain_padLeft (Text.isPlain_ofInt _) 5)).append (by decide)
  refine .before hfront ?_
  split
  · exact .inStyle "bold" (by decide) (proper_literally l.text)
  · exact proper_literally l.text

/-- The percentage of two times, where there is one. -/
theorem writes_accuracyText {actual estimated : Float} {n : Int}
    (h : accuracy actual estimated = .ok n) :
    Writes (accuracyText actual estimated) Written.nothing (.ok (Text.ofInt n ++ "%")) := by
  unfold accuracyText
  rw [h]
  exact Writes.pure _

/-- Without a percentage nothing is shown. -/
theorem writes_accuracyText_error {actual estimated : Float} {e : AccuracyError}
    (h : accuracy actual estimated = .error e) :
    Writes (accuracyText actual estimated) Written.nothing (.error (.accuracy e)) := by
  unfold accuracyText
  rw [h]
  exact Writes.throw _

theorem isPlain_seconds (places : Nat) (x : Float) : IsPlain (seconds places x) :=
  (Binary64.isPlain_fixed places x).append (by decide)

theorem isPlain_percent (n : Int) : IsPlain (Text.ofInt n ++ "%") :=
  (Text.isPlain_ofInt n).append (by decide)

/-- If there is no percentage, the last line fails, and nothing is printed. -/
theorem writes_times_error {r : Report} {e : AccuracyError}
    (h : accuracy r.validationTime r.estimatedTime = .error e) :
    Writes (times c r) Written.nothing (.error (.accuracy e)) :=
  (writes_accuracyText_error h).bind_error _

/-- **If the first line is not printed**, nothing is. -/
theorem exists_writes_opening {r : Report} (h : ¬ c.Prints r.headline) :
    ∃ e, Writes (opening c r) #[] (.error (.console e)) := by
  obtain ⟨e, he⟩ := exists_writes_say h
  exact ⟨e, he.bind_error _⟩

/-- If the first line of a report is not printed, nothing is shown behind it, whatever the view. -/
theorem exists_printed_display_error {r : Report} (h : ¬ c.Prints r.headline) :
    ∃ e, ∀ v : View, (display c v r).printed = (.error (.console e), []) := by
  obtain ⟨e, he⟩ := exists_writes_opening h
  refine ⟨e, fun v => ?_⟩
  rw [display_eq]
  exact (he.bind_error _).printed

/-! ### Terminals that print what is in order -/

section Sound

variable (hc : c.Sound)

include hc

/-- The opening goes through if the headline is printed. -/
theorem completes_opening {r : Report} (h : c.Prints r.headline) : Completes (opening c r) :=
  (completes_say h).andThen
    (completes_printTable (hc.exists_table (proper_summaryTable r.summary)))

/-- The findings go through by category. -/
theorem completes_showCategories (v : View) {r : Report} (h : RulesWritable r.results) :
    Completes (showCategories c v r) := by
  refine completes_forM fun (category, os) hmem => ?_
  obtain ⟨category, -, ⟨⟩⟩ := List.mem_map.mp hmem
  dsimp only
  split
  · refine completes_printTable (hc.exists_table
      (proper_findingsTable (isPlain_categoryTitle category _) fun o ho => ?_))
    exact h o (List.mem_of_mem_filter (List.mem_of_mem_filter ho))
  · exact Completes.pure

/-- The findings go through, in one table or by category. -/
theorem completes_findings (v : View) {r : Report} (h : RulesWritable r.results) :
    Completes (findings c v r) := by
  unfold findings
  dsimp only
  split
  · exact completes_say (hc.prints (.inStyle "green" (s := "✓ No issues found")
      (by decide) (.plain (by decide +kernel))))
  · split
    · exact completes_showCategories hc v h
    · exact completes_printTable (hc.exists_table
        (proper_findingsTable (by decide) fun o ho => h o (List.mem_of_mem_filter ho)))

/-- A snippet goes through, for its texts are made writable. -/
theorem completes_showSnippet (s : Snippet) : Completes (showSnippet c s) := by
  have hline : Proper (s.severity.coloured ++ " line " ++ Text.ofInt s.line) := by
    rw [List.append_assoc]
    exact s.severity.proper_coloured_append
      (.plain (IsPlain.append (by decide) (Text.isPlain_ofInt s.line)))
  have houtcome : ∀ o : Outcome,
      Proper ("         " ++ o.code.wire ++ ": " ++ literally o.observed) := fun o =>
    .before ((IsPlain.append (by decide) (Code.isPlain_wire o.code)).append (by decide))
      (proper_literally o.observed)
  unfold showSnippet
  refine (completes_say (hc.prints hline)).andThen (Completes.andThen ?_ ?_)
  · exact completes_forM fun l _ => completes_say (hc.prints (proper_snippetLine l))
  · exact completes_forM fun o _ => completes_say (hc.prints (houtcome o))

/-- All snippets go through. -/
theorem completes_excerpts (content : Option Text) (r : Report) :
    Completes (excerpts c content r) := by
  unfold excerpts
  split
  · unfold showSnippets
    dsimp only
    split
    · have hheading : Proper "\n[bold]Code snippets:[/bold]" :=
        .before (s := "\n") (by decide) (.inStyle "bold" (s := "Code snippets:")
          (by decide) (.plain (by decide)))
      exact (completes_say (hc.prints hheading)).andThen
        (completes_forM fun s _ => completes_showSnippet hc s)
    · exact Completes.pure
  · exact Completes.pure

/-- The times of a run are shown if there is a percentage. -/
theorem completes_times {r : Report} {n : Int}
    (h : accuracy r.validationTime r.estimatedTime = .ok n) : Completes (times c r) := by
  have hline : IsPlain ("Validated in " ++ seconds 3 r.validationTime ++ " (estimated "
      ++ seconds 2 r.estimatedTime ++ ", accuracy " ++ (Text.ofInt n ++ "%") ++ ")") := by
    refine IsPlain.append (IsPlain.append (IsPlain.append (IsPlain.append (IsPlain.append
      (IsPlain.append ?_ ?_) ?_) ?_) ?_) (isPlain_percent n)) ?_
    · decide
    · exact isPlain_seconds 3 _
    · decide
    · exact isPlain_seconds 2 _
    · decide
    · decide
  obtain ⟨d, hd⟩ := completes_say (hc.prints (.plain hline))
  exact ⟨_, (writes_accuracyText h).bind hd⟩

/-- **A report is shown completely** just if its first line is, whatever else it says, if there is a
percentage of its times. -/
theorem printed_display_iff (v : View) {r : Report} (hrules : RulesWritable r.results) {n : Int}
    (h : accuracy r.validationTime r.estimatedTime = .ok n) :
    (display c v r).printed.1 = .ok () ↔ c.Prints r.headline := by
  constructor
  · intro hprinted
    by_contra hheadline
    obtain ⟨e, he⟩ := exists_printed_display_error hheadline
    rw [he v] at hprinted
    cases hprinted
  · intro hheadline
    refine Completes.printed ?_
    rw [display_eq]
    exact (completes_opening hc hheadline).andThen ((completes_findings hc v hrules).andThen
      ((completes_excerpts hc v.content r).andThen (completes_times hc h)))

/-- **A batch is summed up** if there is a percentage of the sums of its times. -/
theorem completes_displayBatch {rs : List Report} (unreadable : Int) {n : Int}
    (h : accuracy (sum (rs.map validationTime)) (sum (rs.map estimatedTime)) = .ok n) :
    Completes (displayBatch c rs unreadable) := by
  have hrow : ∀ (label : String) (i : Int), IsPlain (Text.ofString label) →
      ∀ cell ∈ row label (Text.ofInt i), Proper cell :=
    fun _ i hlabel => proper_of_mem_row hlabel (Text.isPlain_ofInt i)
  -- every cell is a fixed word or a numeral
  have htable : Table.Proper
      { title := "Batch Summary"
        columns := [⟨"Metric", .left⟩, ⟨"Value", .right⟩]
        rows :=
          [row "Files" (Text.ofInt (rs.length + unreadable)),
            row "Valid" (Text.ofInt (rs.countP Report.isValid))]
            ++ (if unreadable = 0 then [] else [row "Unreadable" (Text.ofInt unreadable)])
            ++ [row "Errors" (Text.ofInt (count (rs.map fun r => r.summary.errors))),
              row "Warnings" (Text.ofInt (count (rs.map fun r => r.summary.warnings))),
              row "Total time" (seconds 3 (sum (rs.map validationTime))),
              row "Estimate accuracy" (Text.ofInt n ++ "%")] } := by
    refine ⟨.plain (by decide : IsPlain "Batch Summary"), ?_⟩
    refine List.forall_mem_append.mpr ⟨List.forall_mem_append.mpr ⟨?_, ?_⟩, ?_⟩
    · simp only [List.forall_mem_cons, List.not_mem_nil, false_imp_iff, implies_true, and_true]
      exact ⟨hrow _ _ (by decide), hrow _ _ (by decide)⟩
    · split
      · exact nofun
      · exact List.forall_mem_singleton.mpr (hrow _ _ (by decide))
    · simp only [List.forall_mem_cons, List.not_mem_nil, false_imp_iff, implies_true, and_true]
      exact ⟨hrow _ _ (by decide), hrow _ _ (by decide),
        proper_of_mem_row (by decide) (isPlain_seconds 3 _),
        proper_of_mem_row (by decide) (isPlain_percent n)⟩
  obtain ⟨d, hd⟩ := completes_printTable (hc.exists_table htable)
  exact ⟨_, (writes_accuracyText h).bind hd⟩

end Sound

end Report

end StepCheck
