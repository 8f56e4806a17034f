import StepCheck.Console.Printing
import StepCheck.File.Entry
import StepCheck.Policy.Bundled
import StepCheck.Policy.Intake
import StepCheck.Report.View
import StepCheck.Run.Log
import StepCheck.Yaml.File

/-!
# Sessions

What a call of the program finds, and what it leaves behind: lines on the console, lines of the log,
a file that has been written, and an exit code.

* `Surroundings` — what a call finds;
* `Trail` — what a call leaves behind;
* `Session` — what a call does, which ends with an exit code or a failure.
-/

namespace StepCheck

/-- **What a call of the program finds.** -/
structure Surroundings where
  files : Files
  /-- What gives documents their values. -/
  reader : Yaml.Reader
  /-- Where lines are printed. -/
  terminal : Terminal
  /-- The policy that the environment names, if it does. -/
  policyVariable : Option Text
  /-- The level of the log that the environment names, if it does. -/
  levelVariable : Option Text
  /-- How many seconds the validation of a file takes. -/
  elapsed : Path → Float
  /-- What stands for the time on a line of the log. -/
  time : Text

/-- **What a call of the program leaves behind.** -/
structure Trail where
  output : Array Text := #[]
  errors : Array Text := #[]
  written : List (Path × Text) := []

/-- **A failure** that ends a call. -/
inductive SessionFailure
  | view (f : ViewFailure)
  | policy (path : Path) (f : Yaml.FileFailure)
  | report (r : Refusal)
  | file (path : Path) (p : FileProblem)

/-- **Why a call ends.** -/
inductive Ending
  | exit (code : Nat)
  | failure (f : SessionFailure)

/-- **What a call does.** -/
abbrev Session (α : Type) : Type := ExceptT Ending (StateM Trail) α

namespace Session

/-- The call ends with a code. -/
def exit {α : Type} (code : Nat) : Session α := throw (.exit code)

/-- The call ends with a failure. -/
def fail {α : Type} (f : SessionFailure) : Session α := throw (.failure f)

/-- Lines are written to standard output. -/
def out (ls : List Text) : Session Unit :=
  modify fun t => { t with output := t.output ++ ls.toArray }

/-- Lines are written to standard error. -/
def complain (ls : List Text) : Session Unit :=
  modify fun t => { t with errors := t.errors ++ ls.toArray }

/-- Lines of the log are written, as far as the logger keeps them. -/
def log (s : Surroundings) (logger : Logger) (ls : List LogLine) : Session Unit :=
  (ls.filter logger.keeps).forM fun l => complain (Text.lines (l.written s.time))

/-- Something is printed on the console. -/
def printing {α : Type} (p : Printing ViewFailure α) : Session α := do
  let (result, ls) := p.printed
  out ls
  match result with
  | .ok a => return a
  | .error e => fail (.view e)

/-- A marked-up text is printed. -/
def say (s : Surroundings) (t : Text) : Session Unit := printing (Report.say s.terminal t)

/-! ### Reading files -/

/-- Whether a failure of reading a policy is told on the console. -/
def isTold : Yaml.FileFailure → Bool
  | .refused (.notIterable _) => false
  | .failed (.noFlagWord _) => false
  | .failed .noTime => false
  | .failed .noDigits => false
  | .failed .numberTooLarge => false
  | .failed (.other isValue _) => isValue
  | .failed (.noCodePoint n) => n < 0x80000000
  | _ => true

/-- The line about a policy that cannot be read. -/
def policyNotice (path : Path) (e : Yaml.FileFailure) : Text :=
  "[red]Error loading policy: " ++ Markup.escape (e.message path) ++ "[/red]"

/-- What becomes of a policy that has been loaded: it is used, or its failure is told, or the call
breaks off. -/
def usePolicy (s : Surroundings) (logger : Logger) (path : Path) :
    Except Yaml.FileFailure Policy → Session Policy
  | .ok p => do
    log s logger [⟨.info, "policy", "loaded validation policy from " ++ path.shown⟩]
    return p
  | .error e =>
    if isTold e then do
      say s (policyNotice path e)
      exit 1
    else fail (.policy path e)

/-- **The policy** of a file, or the bundled one. -/
def policy (s : Surroundings) (logger : Logger) (path : Option Path) : Session Policy := do
  match path with
  | none =>
    let known := Text.ofNat Policy.bundled.entities.known.length
    log s logger [⟨.debug, "policy", "loaded bundled policy (" ++ known ++ " known entities)"⟩]
    return Policy.bundled
  | some path =>
    match s.files.read path with
    | .ok bytes => usePolicy s logger path (Yaml.load s.reader Policy.intake (some bytes))
    | .error problem =>
      if problem.isAbsence then usePolicy s logger path (Yaml.load s.reader Policy.intake none)
      else fail (.file path problem)

/-- The text that bytes hold. Bytes that are no UTF-8 are kept as lone surrogates. -/
def textOf (bytes : List UInt8) : Text :=
  match Utf8.decode .surrogates bytes with
  | .ok t => t
  | .error _ => []

/-- The line about a file that cannot be read. The path in it is not escaped. -/
def readNotice (path : Path) (problem : FileProblem) : Text :=
  "[red]Cannot read " ++ path.shown ++ ": " ++ Markup.escape (problem.message path) ++ "[/red]"

/-- **The text of a file**; if it cannot be read, that is told on the console. -/
def content (s : Surroundings) (logger : Logger) (logsProblem : Bool) (path : Path) :
    Session (Option Text) := do
  match s.files.read path with
  | .ok bytes =>
    let size := Text.ofNat bytes.length
    log s logger [⟨.debug, "cli", "read " ++ path.shown ++ " (" ++ size ++ " bytes)"⟩]
    return some (textOf bytes)
  | .error problem =>
    if logsProblem then
      let message := problem.message path
      log s logger [⟨.info, "cli", "cannot read " ++ path.shown ++ ": " ++ message⟩]
    say s (readNotice path problem)
    return none

end Session

end StepCheck
