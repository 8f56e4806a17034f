import StepCheck.Console.Printing
import StepCheck.Policy.Estimate
import StepCheck.Report.Basic
import StepCheck.Report.Category
import StepCheck.Report.Payload
import StepCheck.Report.Snippet
import StepCheck.Utf8.Encode

/-!
# Reports on the console

A report is shown with its verdict, its numbers, tables of findings, and perhaps the lines of the
file that the findings name; several reports are summed up in one more table.

* `Report.display` — a report;
* `Report.displayBatch` — what a list of reports comes to.
-/

namespace StepCheck

open Console

/-- **Why a report is not shown completely.** -/
inductive ViewFailure
  | console (e : PrintFailure)
  | accuracy (e : AccuracyError)
deriving DecidableEq

/-- **What is shown** of a report. -/
structure View where
  /-- Outcomes that passed are shown too. -/
  showsPassed : Bool
  /-- There is a table for each category. -/
  byCategory : Bool
  /-- The content of the file, if lines of it are shown. -/
  content : Option Text

namespace Severity

/-- The colour of a severity. -/
def colour : Severity → Text
  | error => "red"
  | warning => "yellow"
  | notApplicable => "blue"
  | passed => "green"

/-- The word for a severity in its colour. -/
def coloured (s : Severity) : Text :=
  "[" ++ s.colour ++ "]" ++ s.wire ++ "[/" ++ s.colour ++ "]"

end Severity

namespace Report

/-- Printing reports. -/
abbrev Showing : Type := Printing ViewFailure Unit

/-- A marked-up text is printed. -/
def say (c : Terminal) (t : Text) : Showing := print c .console t

/-- A text as it can be printed, with nothing in it counting as markup. -/
def literally (t : Text) : Text := Markup.escape (Text.printable t)

/-- Seconds with a number of decimal places. -/
def seconds (places : Nat) (x : Float) : Text := Binary64.fixed places x ++ "s"

/-- A row with a label and a value. -/
def row (label : String) (value : Text) : List Text := [Text.ofString label, value]

/-- The accuracy of an estimate as a percentage. -/
def accuracyText (actual estimated : Float) : Printing ViewFailure Text :=
  match accuracy actual estimated with
  | .ok n => return Text.ofInt n ++ "%"
  | .error e => throw (.accuracy e)

/-! ### Tables -/

/-- The table of the numbers of outcomes. Outcomes that do not apply are only counted if there are
any. -/
def summaryTable (s : Summary) : Table where
  title := "Validation Summary"
  columns := [⟨"Severity", .left⟩, ⟨"Count", .right⟩]
  rows :=
    [row "PASSED" (Text.ofInt s.passed), row "WARNING" (Text.ofInt s.warnings),
      row "ERROR" (Text.ofInt s.errors)]
      ++ if s.notApplicable = 0 then [] else [row "NOT_APPLICABLE" (Text.ofInt s.notApplicable)]

/-- The rule of an outcome, or a hyphen. -/
def ruleText (o : Outcome) : Text :=
  match o.rule with
  | some rule => if rule.isEmpty then "-" else Markup.escape rule
  | none => "-"

/-- The line of an outcome, or a hyphen. -/
def lineText (o : Outcome) : Text :=
  match o.line with
  | some line => Text.ofInt line
  | none => "-"

/-- A table of outcomes. -/
def findingsTable (title : Text) (os : List Outcome) : Table where
  title := title
  columns := [⟨"Severity", .left⟩, ⟨"Code", .left⟩, ⟨"Rule", .left⟩, ⟨"Line", .right⟩,
    ⟨"Message", .left⟩]
  rows := os.map fun o =>
    [o.severity.coloured, o.code.wire, ruleText o, lineText o, literally o.observed]

/-! ### Parts of a report -/

section Show

variable (c : Terminal)

/-- Whether an outcome is shown. -/
def isShown (v : View) (o : Outcome) : Bool := v.showsPassed || o.severity ≠ .passed

/-- A table for each category that has outcomes to show. -/
def showCategories (v : View) (r : Report) : Showing :=
  r.categorize.forM fun (category, os) => do
    let os := os.filter (isShown v)
    if !os.isEmpty then
      let title := category.heading ++ " (" ++ Text.ofNat os.length ++ ")"
      printTable c .console (findingsTable title os)

/-- A line of a snippet, marked if the outcomes are about it. -/
def snippetLine (l : SnippetLine) : Text :=
  let t := literally l.text
  " " ++ Text.ofString (if l.flagged then ">" else " ") ++ " " ++ (Text.ofInt l.number).padLeft 5
    ++ " | " ++ (if l.flagged then "[bold]" ++ t ++ "[/bold]" else t)

/-- A snippet with its outcomes. -/
def showSnippet (s : Snippet) : Showing := do
  say c (s.severity.coloured ++ " line " ++ Text.ofInt s.line)
  s.lines.forM fun l => say c (snippetLine l)
  s.outcomes.forM fun o => say c ("         " ++ o.code.wire ++ ": " ++ literally o.observed)

/-- The lines of the content that outcomes name, if they name any. -/
def showSnippets (r : Report) (content : Text) : Showing := do
  let snippets := Snippet.extract content r.results {} false
  if !snippets.isEmpty then
    say c "\n[bold]Code snippets:[/bold]"
    snippets.forM (showSnippet c)

/-- The verdict. -/
def verdict (isValid : Bool) : Text :=
  Text.ofString (if isValid then "[green]✓ VALID[/green]" else "[red]✗ INVALID[/red]")

/-! ### Reports -/

/-- The line over a report. -/
def headline (r : Report) : Text :=
  "\n[bold cyan]" ++ Markup.escape r.filename ++ "[/bold cyan] " ++ verdict r.isValid

/-- **A report is shown.** -/
def display (v : View) (r : Report) : Showing := do
  say c r.headline
  printTable c .console (summaryTable r.summary)
  let shown := r.results.filter (isShown v)
  if shown.isEmpty then say c "[green]✓ No issues found[/green]"
  else if v.byCategory then showCategories c v r
  else printTable c .console (findingsTable "Findings" shown)
  match v.content with
  | some content => showSnippets c r content
  | none => pure ()
  let close ← accuracyText r.validationTime r.estimatedTime
  say c ("Validated in " ++ seconds 3 r.validationTime ++ " (estimated "
    ++ seconds 2 r.estimatedTime ++ ", accuracy " ++ close ++ ")")

/-- **What a list of reports comes to** is shown, where further files could not be read. -/
def displayBatch (rs : List Report) (unreadable : Int) : Showing := do
  let actual := sum (rs.map Report.validationTime)
  let estimated := sum (rs.map Report.estimatedTime)
  let close ← accuracyText actual estimated
  printTable c .console
    { title := "Batch Summary"
      columns := [⟨"Metric", .left⟩, ⟨"Value", .right⟩]
      rows :=
        [row "Files" (Text.ofInt (rs.length + unreadable)),
          row "Valid" (Text.ofInt (rs.countP Report.isValid))]
          ++ (if unreadable = 0 then [] else [row "Unreadable" (Text.ofInt unreadable)])
          ++ [row "Errors" (Text.ofInt (count (rs.map fun r => r.summary.errors))),
            row "Warnings" (Text.ofInt (count (rs.map fun r => r.summary.warnings))),
            row "Total time" (seconds 3 actual), row "Estimate accuracy" close] }

end Show

end Report

end StepCheck
