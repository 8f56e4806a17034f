import StepCheck.Outcome.Basic
import StepCheck.Text.Lines

/-!
# Snippets

Outcomes that name a line can be shown together with the lines around it. There is one snippet for
each line that is named, in the order of the lines; it shows a window of the content, clipped to its
lines, and carries all outcomes that name the line.

* `Snippet` — lines of the content with the outcomes about one of them;
* `Snippet.extract` — the snippets of a list of outcomes.
-/

namespace StepCheck

/-- **A line** of a snippet. -/
structure SnippetLine where
  number : Int
  text : Text
  /-- Whether the outcomes of the snippet are about this line. -/
  flagged : Bool
deriving DecidableEq

/-- **A snippet.** -/
structure Snippet where
  line : Int
  /-- The worst severity of its outcomes. -/
  severity : Severity
  outcomes : List Outcome
  lines : List SnippetLine
deriving DecidableEq

/-- How many lines a snippet shows. -/
structure Window where
  before : Int := 2
  after : Int := 3

namespace Snippet

/-- A line without the carriage returns at its end. -/
def withoutReturns (t : Text) : Text :=
  (t.reverse.dropWhile (· = (CodePoint.ofChar '\r'))).reverse

/-- The numbered lines around a line. -/
def linesAround (source : List Text) (window : Window) (line : Int) : List SnippetLine :=
  let first := max 1 (line - window.before)
  let last := min (source.length : Int) (line + window.after)
  let shown := (source.drop (first - 1).toNat).take (last - first + 1).toNat
  (Text.numberedFrom first.toNat shown).map fun (number, t) =>
    ⟨number, withoutReturns t, (number : Int) = line⟩

/-- Whether an outcome is shown in snippets. -/
def keeps (includePassed : Bool) (o : Outcome) : Bool := includePassed || o.severity ≠ .passed

/-- The lines that outcomes name, in order and each once. -/
def linesNamed (os : List Outcome) : List Int :=
  ((os.filterMap Outcome.line).mergeSort fun i j => i ≤ j).eraseDups

/-- The worst severity of a list of outcomes. -/
def worst : List Outcome → Severity
  | [] => .passed
  | o :: os => os.foldl (fun s o => s.worse o.severity) o.severity

/-- **The snippets** of a list of outcomes. -/
def extract (content : Text) (os : List Outcome) (window : Window) (includePassed : Bool) :
    List Snippet :=
  let kept := os.filter (keeps includePassed)
  let source := content.lines
  (linesNamed kept).map fun line =>
    let about := kept.filter fun o => o.line = some line
    ⟨line, worst about, about, linesAround source window line⟩

end Snippet

end StepCheck
