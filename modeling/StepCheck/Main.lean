import Std.Time.Format
import Std.Time.Zoned
import StepCheck.CommandLine.Program
import StepCheck.Utf8.Encode

/-!
# The command line

Everything that a call may look at is read first: what stands under its words, under the values
joined to options, under the policy that the environment names, and under the folders above them.
The call itself is then a value (`Program.run`), and what it leaves behind is written.
-/

namespace StepCheck

namespace Shell

/-- The texts of a call that may be paths. -/
def candidates (words : List Text) (policy : Option Text) : List Text :=
  let joined := words.map fun w => (w.dropWhile fun c => c ≠ CodePoint.ofChar '=').drop 1
  words ++ joined ++ policy.toList

/-- The paths that a call may look at. -/
def paths (words : List Text) (policy : Option Text) : List Path :=
  ((candidates words policy).map Path.of).flatMap fun p => [p, p.parent]

/-- The number that the system gives to a folder that is read as a file. -/
def folderCode : UInt32 := 21

/-- What stands under a path. -/
def entry (p : Path) : IO Entry := do
  match ← (IO.FS.readBinFile p.shown.toString).toBaseIO with
  | .ok bytes => return .file bytes.toList
  | .error (.inappropriateType _ code _) =>
    return if code = folderCode then .folder else .beyondFile
  | .error (.permissionDenied ..) => return .locked
  | .error _ => return .absent

/-- The seconds that it takes to validate what stands under a path, found by a trial. -/
def seconds (p : Path) : Entry → IO Float
  | .file bytes => do
    let start ← IO.monoNanosNow
    let run ← IO.lazyPure fun _ =>
      (Pipeline.new none).ready.validate none (.real 0) (.text (Session.textOf bytes))
        (.text p.name)
    let stop ← IO.monoNanosNow
    return if run.result.toBool then Float.ofScientific (stop - start) true 9 else 0
  | _ => return 0

/-- The variable of the environment with a name. -/
def variableOf (name : String) : IO (Option Text) := do
  return (← IO.getEnv name).map Text.ofString

/-- What a call with words finds. -/
def surroundings (words : List Text) : IO Surroundings := do
  let policy ← variableOf "IFCVAL_POLICY"
  let level ← variableOf "IFCVAL_LOG_LEVEL"
  let found ← (paths words policy).mapM fun p => do
    let e ← entry p
    return (p, e, ← seconds p e)
  let now ← Std.Time.PlainDateTime.now
  return {
    files := fun p => ((found.find? fun f => f.1 = p).map fun f => f.2.1).getD .absent
    reader := Yaml.read
    terminal := .utf8
    policyVariable := policy
    levelVariable := level
    elapsed := fun p => ((found.find? fun f => f.1 = p).map fun f => f.2.2).getD 0
    time := Text.ofString (now.format "uuuu-MM-dd HH:mm:ss,SSS") }

/-- A text is written to a file. The folders above it are made. -/
def write (p : Path) (t : Text) : IO Unit := do
  IO.FS.createDirAll p.parent.shown.toString
  IO.FS.writeFile p.shown.toString t.printable.toString

/-- What is told about a call that a failure ended. -/
def told : SessionFailure → Text
  | .view (.console e) => e.message
  | .view (.accuracy e) => e.message
  | .policy path f => f.message path
  | .report _ => "The report was refused"
  | .file path p => p.message path

/-- What a call leaves behind is written, and its exit code is returned. -/
def leave (e : Ending) (t : Trail) : IO UInt32 := do
  for l in t.output do IO.println l.printable.toString
  for l in t.errors do IO.eprintln l.printable.toString
  for (p, document) in t.written do write p document
  match e with
  | .exit code => return UInt32.ofNat code
  | .failure f =>
    IO.eprintln (told f).printable.toString
    return 1

end Shell

end StepCheck

open StepCheck in
/-- **The program.** -/
def main (args : List String) : IO UInt32 := do
  let words := args.map Text.ofString
  let (ending, trail) := Program.run (← Shell.surroundings words) words
  Shell.leave ending trail
