import StepCheck.Datum.Intake
import StepCheck.File.Path
import StepCheck.Yaml.Reader

/-!
# Files in YAML

A file is read in steps: its bytes are a text, the text is a document, the document has a value, and
the value has the structure that is asked for. Each step can fail. What gives a document its value
is not settled here, but asked of a reader.

* `Reader` — what gives texts their values, such as `Yaml.read`;
* `FileFailure` — what can be wrong with a file;
* `load` — the value of a file.
-/

namespace StepCheck.Yaml

/-- **A reader of documents**: what gives a text its value, or fails. -/
abbrev Reader : Type := Text → Except Failure Datum

/-- **What is wrong with a file.** -/
inductive FileFailure
  | absent
  /-- Bytes are no UTF-8. -/
  | undecodable (e : Utf8.DecodeError)
  | malformed
  | empty
  /-- There is a document, but its reader has failed to give it a value. -/
  | failed (f : Failure)
  /-- The value does not have the structure that is asked for. -/
  | refused (r : Refusal)
  /-- What structure is asked for has been told twice, or not at all. -/
  | unclear
deriving DecidableEq

namespace FileFailure

/-- The text of a failure. -/
def message (path : Path) : FileFailure → Text
  | absent => "File not found: " ++ path.shown
  | undecodable e => "Unable to decode UTF-8 in " ++ path.shown ++ ": " ++ e.message
  | malformed => "Invalid YAML in " ++ path.shown
  | empty => "Empty YAML file: " ++ path.shown
  | failed f => f.message
  | refused (.faults _) => "Invalid structure in " ++ path.shown
  | refused (.notIterable kind) => Refusal.notIterableMessage kind
  | unclear => "Provide exactly one of 'adapter' or 'model'."

end FileFailure

/-- A text whose lines all end with a line feed. A carriage return ends a line, with or without a
line feed behind it. -/
def withLineFeeds : Text → Text
  | [] => []
  | [c] => if c = '\r' then [CodePoint.lineFeed] else [c]
  | c :: d :: t =>
    if c = '\r' then
      if d = '\n' then withLineFeeds (d :: t) else CodePoint.lineFeed :: withLineFeeds (d :: t)
    else c :: withLineFeeds (d :: t)

/-- **The value of a file**, of which the bytes are given if it is there. -/
def load {α : Type} (reader : Reader) (intake : Intake α) (bytes : Option (List UInt8)) :
    Except FileFailure α := do
  let some bytes := bytes | throw .absent
  match Utf8.decode .strict bytes with
  | .error e => throw (.undecodable e)
  | .ok t =>
    match reader (withLineFeeds t) with
    | .error .malformed => throw .malformed
    | .error f => throw (.failed f)
    | .ok .null => throw .empty
    | .ok d =>
      match intake d with
      | .ok a => return a
      | .error r => throw (.refused r)

/-- The one of two readers that is given. -/
def exactlyOne {α : Type} : Option α → Option α → Except FileFailure α
  | some a, none => .ok a
  | none, some a => .ok a
  | _, _ => .error .unclear

end StepCheck.Yaml
