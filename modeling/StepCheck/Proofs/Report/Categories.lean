import StepCheck.Proofs.Check.Outcomes
import StepCheck.Proofs.Report.Display

/-!
# Nothing is lost between categories

Categories overlap, and nothing in their definition says that they cover all outcomes: there are
codes, and names of rules, that belong to none of them. They cover what the checks find, because the
table of outcomes has few rows, and each of them belongs somewhere. So a report shown by categories
shows every outcome that it would show in one table.

* `Category.exists_hasRow_of_mem_table` — every row of the table of outcomes has a category;
* `Report.tables`, `Report.writes_showCategories` — the tables of a report shown by categories;
* `Report.ShownByCategory` — what such a report has in common with the same one in one table;
* `Report.categories_cover` — reports that runs give.
-/

namespace StepCheck

/-! ### Rows of the table of outcomes -/

namespace Category

/-- The categories of outcomes that have not passed. -/
def issues : List Category := [envelope, header, entities, business, practice]

/-- Whether outcomes of a row of the table belong to a category. -/
def hasRow (c : Category) (row : Rule × Severity × Code) : Bool :=
  (c == passed && row.2.1 = .passed) || c.codes.contains row.2.2
    || c.ruleWords.any fun word => word.occursIn row.1.name

/-- **Every row of the table** has a category, also if the one for passed outcomes is left out. -/
theorem exists_hasRow_of_mem_table {group : CheckGroup} {row : Rule × Severity × Code}
    (h : row ∈ group.table) :
    if row.2.1 = .passed then passed.hasRow row = true else ∃ c ∈ issues, c.hasRow row = true := by
  have hall : ∀ row ∈ group.table,
      if row.2.1 = .passed then passed.hasRow row = true
      else ∃ c ∈ issues, c.hasRow row = true := by
    cases group <;> decide +kernel
  exact hall row h

/-- An outcome about a rule belongs to the categories of its row. -/
theorem has_eq_hasRow {o : Outcome} {rule : Rule} (h : o.rule = some rule.name) (c : Category) :
    c.has o = c.hasRow (rule, o.severity, o.code) := by
  unfold has hasRow
  rw [h, Option.getD_some]

end Category

/-- **Every outcome that the checks find** has a category. -/
theorem Outcome.Regular.exists_category {group : CheckGroup} {o : Outcome} (h : o.Regular group) :
    if o.severity = .passed then Category.passed.has o = true
    else ∃ c ∈ Category.issues, c.has o = true := by
  obtain ⟨rule, -, feature, hfeature, hname, hrow, -⟩ := h
  have hrule : o.rule = some rule.name := by
    rw [← hname, Outcome.rule, hfeature]
    rfl
  have hcategory := Category.exists_hasRow_of_mem_table hrow
  simp only [Category.has_eq_hasRow hrule]
  exact hcategory

/-! ### Tables -/

namespace Report

variable {v : View} {r : Report} {o : Outcome}

/-- The outcomes of a report that are shown. -/
def shown (v : View) (r : Report) : List Outcome := r.results.filter (isShown v)

/-- **The tables** of a report shown by categories: each category that has outcomes to show, with
these. -/
def tables (v : View) (r : Report) : List (Category × List Outcome) :=
  (Category.all.map fun c => (c, (r.shown v).filter c.has)).filter fun table => !table.2.isEmpty

/-- A table is printed if it is not empty, and holds what is shown and belongs to its category. -/
theorem mem_tables {table : Category × List Outcome} :
    table ∈ r.tables v ↔ table.2 = (r.shown v).filter table.1.has ∧ table.2 ≠ [] := by
  obtain ⟨c, os⟩ := table
  have hall : c ∈ Category.all := by cases c <;> decide
  unfold tables
  rw [List.mem_filter, List.mem_map, Bool.not_eq_true', List.isEmpty_eq_false_iff]
  refine and_congr_left fun _ => ⟨?_, ?_⟩
  · rintro ⟨c, -, ⟨⟩⟩
    rfl
  · exact fun hos => ⟨c, hall, Prod.ext rfl hos.symm⟩

/-- An outcome that is shown and has a category has a place in a table. -/
theorem exists_mem_tables {c : Category} (ho : o ∈ r.shown v) (hc : c.has o = true) :
    ∃ table ∈ r.tables v, o ∈ table.2 := by
  have hmem : o ∈ (r.shown v).filter c.has := List.mem_filter.mpr ⟨ho, hc⟩
  exact ⟨(c, _), mem_tables.mpr ⟨rfl, List.ne_nil_of_mem hmem⟩, hmem⟩

/-- The title of a table of a category. -/
def tableTitle (table : Category × List Outcome) : Text :=
  table.1.heading ++ " (" ++ Text.ofNat table.2.length ++ ")"

/-- **A table for each category** is printed, one below the other. -/
theorem writes_showCategories {c : Terminal} {lines : Table → List Text}
    (hlines : ∀ category : Category, ∀ os, os = (r.shown v).filter category.has →
      let t := findingsTable (tableTitle (category, os)) os
      c.table t = .ok (lines t)) :
    Writes (showCategories c v r) ((r.tables v).flatMap fun table =>
      lines (findingsTable (tableTitle table) table.2)).toArray (.ok ()) := by
  unfold showCategories categorize tables
  -- on the categories; one without outcomes to show prints nothing
  induction Category.all with
  | nil => exact Writes.pure ()
  | cons category categories ih =>
    have hfilter : (category.select r.results).filter (isShown v)
        = (r.shown v).filter category.has := by
      unfold Category.select shown
      rw [List.filter_filter, List.filter_filter]
      exact List.filter_congr fun _ _ => Bool.and_comm _ _
    rw [List.map_cons, List.map_cons, List.filter_cons]
    change Writes (_ >>= fun _ => _) _ _
    dsimp only
    rw [hfilter]
    by_cases hempty : ((r.shown v).filter category.has).isEmpty = true
    · rw [if_neg (by simp [hempty]), if_neg (by simp [hempty])]
      have hrest := (Writes.pure ()).andThen ih
      rw [Written.nothing_append] at hrest
      exact hrest
    · rw [if_pos (by simp [hempty]), if_pos (by simp [hempty]), List.flatMap_cons]
      have htable := Console.writes_emitMade (hlines category _ rfl) ViewFailure.console
      have hrest := htable.andThen ih
      rw [List.append_toArray] at hrest
      exact hrest

/-- Where there is something to show, it is shown in tables. -/
theorem findings_of_ne_nil (c : Terminal) (v : View) (h : r.shown v ≠ []) :
    findings c v r = if v.byCategory then showCategories c v r
      else Console.printTable c .console (findingsTable "Findings" (r.shown v)) := by
  have hempty : ¬ (r.results.filter (isShown v)).isEmpty = true := by rwa [List.isEmpty_iff]
  unfold findings
  dsimp only
  rw [if_neg hempty]
  rfl

/-- Where there is nothing to show, views do not differ. -/
theorem findings_of_nil (c : Terminal) (v : View) (h : r.shown v = []) :
    findings c v r = say c "[green]✓ No issues found[/green]" := by
  unfold findings
  exact if_pos (List.isEmpty_iff.mpr h)

/-- What is printed behind the findings does not depend on how these are shown. -/
theorem exists_writes_excerpts_times {c : Terminal} (hc : c.Sound) (content : Option Text)
    (r : Report) : ∃ d answer, Writes (excerpts c content r >>= fun _ => times c r) d answer := by
  obtain ⟨d, hd⟩ := completes_excerpts hc content r
  cases h : accuracy r.validationTime r.estimatedTime with
  | ok n =>
    obtain ⟨d', hd'⟩ := completes_times hc h
    exact ⟨_, _, hd.andThen hd'⟩
  | error e => exact ⟨_, _, hd.andThen (writes_times_error h)⟩

/-- **What the views of a report have in common.** There is something before the findings and
something behind them, and the answer, whatever the findings print. -/
theorem exists_printed_display {c : Terminal} (hc : c.Sound) (v : View)
    (hheadline : c.Prints r.headline) :
    ∃ before after answer, ∀ byCategory findingsLines,
      Writes (findings c { v with byCategory } r) (List.toArray findingsLines) (.ok ()) →
      (display c { v with byCategory } r).printed = (answer, before ++ findingsLines ++ after) := by
  obtain ⟨before, hbefore⟩ := completes_opening hc hheadline
  obtain ⟨after, answer, hafter⟩ := exists_writes_excerpts_times hc v.content r
  refine ⟨before.toList, after.toList, answer, fun byCategory ls hls => ?_⟩
  have hdisplay := hbefore.andThen (hls.andThen hafter)
  rw [← display_eq c { v with byCategory } r] at hdisplay
  rw [hdisplay.printed]
  simp

/-! ### What a table holds -/

end Report

/-- **A row that tells of an outcome**, cell by cell, as it is marked up. -/
structure Outcome.IsToldBy (o : Outcome) (row : List Text) : Prop where
  length_eq : row.length = 5
  /-- The word for the severity, in some colour. -/
  severity : ∃ colour ∈ Markup.styles,
    row[0]? = some ("[" ++ colour ++ "]" ++ o.severity.wire ++ "[/" ++ colour ++ "]")
  code : row[1]? = some o.code.wire
  /-- The name of the rule, as it is, or a hyphen. -/
  rule : row[2]? = some (if o.rule.getD [] = [] then Text.ofString "-"
    else Markup.escape (o.rule.getD []))
  /-- The number of the line, or a hyphen. -/
  line : row[3]? = some (o.line.elim (Text.ofString "-") Text.ofInt)
  /-- What was observed, with question marks for what cannot be written. -/
  observed : row[4]? = some (Markup.escape o.observed.printable)

/-- **A table that lists outcomes** under a title: it has a row for each of them, in their order. -/
structure Table.Lists (t : Table) (title : Text) (os : List Outcome) : Prop where
  title_eq : t.title = title
  rows : List.Forall₂ Outcome.IsToldBy os t.rows

namespace Report

variable {v : View} {r : Report} {o : Outcome}

/-- **A table of findings** has a row for each of them. -/
theorem lists_findingsTable (title : Text) (os : List Outcome) :
    (findingsTable title os).Lists title os where
  title_eq := rfl
  rows := by
    change List.Forall₂ _ os (os.map _)
    rw [List.forall₂_map_right_iff, List.forall₂_same]
    intro o _
    -- one cell after the other: only the severity is coloured, and what is escaped is shown as it
    -- was
    refine ⟨rfl, ⟨o.severity.colour, ?_, rfl⟩, rfl, ?_, ?_, rfl⟩
    · cases o.severity <;> decide
    · change some (ruleText o) = _
      unfold ruleText
      cases o.rule with
      | none => rfl
      | some rule => cases rule <;> rfl
    · change some (lineText o) = _
      unfold lineText
      cases o.line <;> rfl

/-- **A report shown by categories**, against the same report with its findings in one table. -/
structure ShownByCategory (c : Terminal) (v : View) (r : Report) : Prop where
  /-- Every outcome that is shown has a place in a table. -/
  covered : ∀ o ∈ r.shown v, ∃ table ∈ r.tables v, o ∈ table.2
  /-- A table has outcomes of its category, in the order of the report. -/
  ordered : ∀ table ∈ r.tables v,
    table.2.Sublist (r.shown v) ∧ ∀ o ∈ table.2, table.1.has o = true
  /-- There is a table unless there is nothing to show. -/
  exists_table : r.shown v ≠ [] → r.tables v ≠ []
  /-- The tables are printed where the one table would be printed, each with a row for every outcome
  that has a place in it, and all else is the same. -/
  printed : c.Prints r.headline → r.shown v ≠ [] →
    ∃ (ts : List Table) (whole : Table) (lines : Table → List Text) (before after : List Text)
      (answer : Except ViewFailure Unit),
      List.Forall₂ (fun table t => t.Lists (tableTitle table) table.2) (r.tables v) ts ∧
      whole.Lists "Findings" (r.shown v) ∧
      (∀ t ∈ whole :: ts, c.table t = .ok (lines t)) ∧
      (display c { v with byCategory := true } r).printed
        = (answer, before ++ ts.flatMap lines ++ after) ∧
      (display c { v with byCategory := false } r).printed
        = (answer, before ++ lines whole ++ after)
  /-- Where there is nothing to show, or not even the first line is printed, the two are the
  same. -/
  printed_same : (r.shown v = [] ∨ ¬ c.Prints r.headline) →
    (display c { v with byCategory := true } r).printed
      = (display c { v with byCategory := false } r).printed

/-- Reports whose outcomes have categories can be shown by categories. -/
theorem shownByCategory {c : Terminal} (hc : c.Sound) (hrules : RulesWritable r.results)
    (h : ∀ o ∈ r.results, ∃ category : Category, category.has o = true) (v : View) :
    ShownByCategory c v r := by
  have hcovered : ∀ o ∈ r.shown v, ∃ table ∈ r.tables v, o ∈ table.2 := by
    intro o ho
    obtain ⟨category, hcategory⟩ := h o (List.mem_of_mem_filter ho)
    exact exists_mem_tables ho hcategory
  refine ⟨hcovered, ?_, ?_, ?_, ?_⟩
  · intro table htable
    rw [(mem_tables.mp htable).1]
    exact ⟨List.filter_sublist, fun o ho => (List.mem_filter.mp ho).2⟩
  · intro hne hnil
    obtain ⟨o, ho⟩ := List.exists_mem_of_ne_nil _ hne
    obtain ⟨table, htable, -⟩ := hcovered o ho
    rw [hnil] at htable
    cases htable
  · intro hheadline hne
    have hshown : RulesWritable (r.shown v) := fun o ho => hrules o (List.mem_of_mem_filter ho)
    -- the lines that the terminal makes of a table; tables of findings are in order
    let lines : Table → List Text := fun t => (c.table t).toOption.getD []
    have hlines : ∀ {title : Text} {os : List Outcome}, Markup.IsPlain title → RulesWritable os →
        c.table (findingsTable title os) = .ok (lines (findingsTable title os)) := by
      intro title os htitle hos
      obtain ⟨ls, hls⟩ := hc.exists_table (proper_findingsTable htitle hos)
      simp only [lines, hls, Except.toOption, Option.getD_some]
    have hcategory : ∀ category : Category, ∀ os, os = (r.shown v).filter category.has →
        let t := findingsTable (tableTitle (category, os)) os
        c.table t = .ok (lines t) := by
      rintro category os rfl
      exact hlines (isPlain_categoryTitle category _) fun o ho =>
        hshown o (List.mem_of_mem_filter ho)
    have hwhole := hlines (by decide : Markup.IsPlain "Findings") hshown
    obtain ⟨before, after, answer, hdisplay⟩ := exists_printed_display hc v hheadline
    refine ⟨(r.tables v).map fun table => findingsTable (tableTitle table) table.2,
      findingsTable "Findings" (r.shown v), lines, before, after, answer, ?_,
      lists_findingsTable _ _, ?_, ?_, hdisplay false _ ?_⟩
    · rw [List.forall₂_map_right_iff, List.forall₂_same]
      exact fun table _ => lists_findingsTable _ _
    · refine List.forall_mem_cons.mpr ⟨hwhole, List.forall_mem_map.mpr fun table htable => ?_⟩
      exact hcategory table.1 table.2 (mem_tables.mp htable).1
    · rw [List.flatMap_map]
      refine hdisplay true _ ?_
      rw [findings_of_ne_nil c { v with byCategory := true } hne, if_pos rfl]
      exact writes_showCategories hcategory
    · rw [findings_of_ne_nil c { v with byCategory := false } hne, if_neg Bool.false_ne_true]
      exact Console.writes_emitMade hwhole ViewFailure.console
  · rintro (hnil | hheadline)
    · rw [display_eq, display_eq, findings_of_nil c { v with byCategory := true } hnil,
        findings_of_nil c { v with byCategory := false } hnil]
    · obtain ⟨e, he⟩ := exists_printed_display_error hheadline
      rw [he, he]

/-- **Nothing is lost between categories.** In the report of a run over a text under an accepted
policy every outcome that has not passed has one of the categories of issues, and every outcome that
has passed the category of those. So whatever is to be shown, the report shown by categories shows
every outcome that it shows in one table. This is so on every terminal that prints what is in order;
and such a terminal shows all of it unless the name of the file cannot be written. -/
theorem categories_cover {P : Policy} (hP : P.Accepted) {seconds : Float} (hs : 0 ≤ seconds)
    {content : Content} {filename t : Text} (ht : content.toText filename = .ok t)
    {sink : Option Sink} (h : Sink.Patient sink (Notification.series (P.estimator.estimate t)))
    {c : Terminal} (hc : c.Sound) :
    ∃ r, (validateContent (some P) sink (.real seconds) content (.text filename)).result = .ok r ∧
      (∀ o ∈ r.results, o.severity ≠ .passed → ∃ category ∈ Category.issues,
        category.has o = true) ∧
      (∀ o ∈ r.results, o.severity = .passed → Category.passed.has o = true) ∧
      (filename.IsWritable → c.Prints r.headline) ∧
      ∀ v : View, ShownByCategory c v r := by
  refine ⟨_, result_validateContent hP hs ht h, ?_⟩
  generalize hr : Report.of filename seconds _ _ = r
  -- each outcome is regular, and the table of severities and codes leaves none without a category
  have hcategory : ∀ o ∈ r.results, if o.severity = .passed then Category.passed.has o = true
      else ∃ c ∈ Category.issues, c.has o = true := by
    intro o ho
    rw [← hr] at ho
    obtain ⟨group, f, hf, rfl⟩ := CheckGroup.exists_of_mem_outcomes ho
    exact (CheckGroup.regular_of_mem_findings hf).outcome.exists_category
  have hrules : RulesWritable r.results := by
    rw [← hr]
    exact rulesWritable_outcomes P (Layout.of t)
  refine ⟨fun o ho hne => ?_, fun o ho hpassed => ?_, fun hwritable => hc.prints ?_,
    shownByCategory hc hrules fun o ho => ?_⟩
  · have ho := hcategory o ho
    rwa [if_neg hne] at ho
  · have ho := hcategory o ho
    rwa [if_pos hpassed] at ho
  · rw [← hr]
    exact proper_headline hwritable
  · have ho := hcategory o ho
    split at ho
    · exact ⟨_, ho⟩
    · obtain ⟨category, -, hmem⟩ := ho
      exact ⟨category, hmem⟩

/-- Of a small file with both sections, the errors and warnings are shown by categories on a
terminal that writes UTF-8. -/
theorem categories_cover_chairSample :
    ∃ r, (validateContent (some Policy.bundled) none (.real 0) (.text chairSample)
        (.text "a.ifc")).result = .ok r ∧
      (r.shown ⟨false, true, none⟩).map Outcome.severity = [.error, .error, .error, .error,
        .warning, .warning, .warning, .warning, .warning, .warning, .warning] ∧
      Terminal.utf8.Prints r.headline ∧ ∀ v : View, ShownByCategory .utf8 v r := by
  have ht : (Content.text chairSample).toText "a.ifc" = .ok chairSample := rfl
  have hs : (0 : Float) ≤ 0 := by decide
  obtain ⟨r, hr, -, -, hheadline, hshown⟩ :=
    categories_cover Policy.accepted_bundled hs ht (Sink.patient_none _) Terminal.sound_utf8
  refine ⟨r, hr, ?_, hheadline (by decide), hshown⟩
  have hresults := hr
  rw [result_validateContent Policy.accepted_bundled hs ht (Sink.patient_none _)] at hresults
  have hseverities := congrArg (List.map fun row => row.2.1) outcomes_chairSample
  rw [List.map_map] at hseverities
  obtain rfl := Except.ok.inj hresults
  have hfilter : ∀ os : List Outcome, (os.filter (isShown ⟨false, true, none⟩)).map Outcome.severity
      = (os.map Outcome.severity).filter (· ≠ .passed) := by
    intro os
    rw [List.filter_map]
    rfl
  exact (hfilter _).trans (congrArg (List.filter (· ≠ Severity.passed)) hseverities)

end Report

end StepCheck
