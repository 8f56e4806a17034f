import StepCheck.CommandLine.Call
import StepCheck.Report.Export

/-!
# Validating files

Every file is read, validated and shown, all of them are summed up if there are several, and the
reports are written to a file if that is asked for. The exit code tells the worst that was found.

* `Validation` — what is asked for;
* `Validation.run` — the command.
-/

namespace StepCheck

/-- **What is asked for** when files are validated. -/
structure Validation where
  files : List Path
  policy : Option Path
  /-- Warnings count as failures. -/
  isStrict : Bool
  exportPath : Option Path
  format : Text
  showsPassed : Bool
  byCategory : Bool
  showsSnippets : Bool
  showsProgress : Bool

namespace Validation

/-- What a call asks for. A path that is given twice counts once. -/
def ofGiven (s : Surroundings) (g : Given) : Validation where
  files := (g.arguments.map Path.of).eraseDups
  policy := Call.policyPath s g
  isStrict := g.has "--strict"
  exportPath := (g.value? "--export").map Path.of
  format := ((g.value? "--format").map (·.map Call.foldLetter)).getD "yaml"
  showsPassed := g.has "--show-passed"
  byCategory := g.has "--by-category"
  showsSnippets := g.has "--snippets"
  showsProgress := !g.has "--no-progress"

/-- **A file** that has been read. -/
structure Source where
  path : Path
  content : Text

/-- The files that can be read. -/
def sources (s : Surroundings) (logger : Logger) (v : Validation) : Session (List Source) := do
  let read ← v.files.mapM fun path => do
    return (← Session.content s logger true path).map (Source.mk path)
  return read.filterMap id

/-- The width of the bar of a file that is done. -/
def barWidth : Nat := 40

/-- The rows about files that are done. -/
def progress (sources : List Source) : Grid :=
  ⟨sources.map fun f =>
    [" ", f.path.name, List.replicate barWidth (CodePoint.ofChar '━'), "100%", "completed"]⟩

/-- The rows about files that are done are printed, or a blank line if there is none. -/
def showProgress (s : Surroundings) (sources : List Source) : Session Unit :=
  if sources.isEmpty then Session.out [[]]
  else Session.printing (Console.printGrid s.terminal ViewFailure.console (progress sources))

/-- **The report of a file.** -/
def reportOf (s : Surroundings) (logger : Logger) (policy : Policy) (f : Source) :
    Session Report := do
  let run := (Pipeline.new (some policy)).ready.validate (some Sink.patient)
    (.real (s.elapsed f.path)) (.text f.content) (.text f.path.name)
  match run.result with
  | .ok r =>
    Session.log s logger (Pipeline.log policy f.path.name f.content r)
    return r
  | .error (.refused r) => Session.fail (.report r)
  | .error (.interrupted (.refused r)) => Session.fail (.report r)
  | .error _ => Session.fail (.report (.faults []))

/-- A report with the lines of its file, if they are asked for. -/
def showReport (s : Surroundings) (v : Validation) (f : Source) (r : Report) : Session Unit :=
  Session.printing (Report.display s.terminal
    { showsPassed := v.showsPassed
      byCategory := v.byCategory
      content := if v.showsSnippets then some f.content else none } r)

/-- The line about a file that reports have been written to. The path in it is not escaped. -/
def exportNotice (path : Path) : Text := "[green]✓[/green] Report exported to " ++ path.shown

/-- **The reports are written** to a file. -/
def writeReports (s : Surroundings) (v : Validation) (path : Path) (rs : List Report) :
    Session Unit := do
  match Report.dumpAll v.format rs with
  | .error (.accuracy e) => Session.fail (.view (.accuracy e))
  | .error (.unknownFormat _) => Session.exit 1
  | .ok document =>
    match s.files.writeProblem? path with
    | some (problem, path) => Session.fail (.file path problem)
    | none =>
      modify fun t => { t with written := t.written ++ [(path, document)] }
      Session.say s (exportNotice path)

/-- The verdict over all files, with the exit code. -/
def conclude (s : Surroundings) (v : Validation) (unreadable : Nat) (rs : List Report) :
    Session Unit := do
  let errors := Report.count (rs.map fun r => r.summary.errors)
  let warnings := Report.count (rs.map fun r => r.summary.warnings)
  if unreadable ≠ 0 ∨ 0 < errors then
    Session.say s ("\n[red]✗[/red] Validation failed with " ++ Text.ofInt errors ++ " errors")
    Session.exit 1
  else if v.isStrict ∧ 0 < warnings then
    Session.say s ("\n[yellow]⚠[/yellow] Validation completed with " ++ Text.ofInt warnings
      ++ " warnings (strict mode)")
    Session.exit 2
  else
    Session.say s "\n[green]✓[/green] Validation completed successfully"
    Session.exit 0

/-- **Files are validated.** -/
def run (s : Surroundings) (logger : Logger) (v : Validation) : Session Unit := do
  let policy ← Session.policy s logger v.policy
  let sources ← v.sources s logger
  -- files that could not be read have been told of already
  let unreadable := v.files.length - sources.length
  Session.say s "\n[bold cyan]IFC Validation[/bold cyan]"
  if v.showsProgress then showProgress s sources
  let reports ← sources.mapM (reportOf s logger policy)
  (sources.zip reports).forM fun (f, r) => v.showReport s f r
  -- the files that were asked for count, also those that could not be read
  if 1 < v.files.length then Session.printing (Report.displayBatch s.terminal reports unreadable)
  match v.exportPath with
  | some path => if !reports.isEmpty then v.writeReports s path reports
  | none => pure ()
  v.conclude s unreadable reports

end Validation

end StepCheck
