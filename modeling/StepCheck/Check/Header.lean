import StepCheck.Check.Finding
import StepCheck.Step.Layout
import StepCheck.Policy.Basic

/-!
# The header section

The header has to describe the file, to name it, and to say which schema its data follow, in the
records `FILE_DESCRIPTION`, `FILE_NAME` and `FILE_SCHEMA(('…'))`. Where there is no header section,
that is all that is said, so that one fault is not reported several times.
-/

namespace StepCheck.Header

/-- The keyword of the record that names the schema. -/
def schemaKeyword : Text := "FILE_SCHEMA"

/-- A given character after white space, and what follows it. -/
def afterBlanks? (c : CodePoint) (t : Text) : Option Text :=
  match t.stripLeft with
  | [] => none
  | d :: rest => if d = c then some rest else none

/-- **The schema record** that begins at the front of a text: the keyword, two opening parentheses
and a quoted identifier, with white space between them. The answer is the first identifier, taken as
written. -/
def schemaAtFront? (t : Text) : Option Text := do
  let rest ← schemaKeyword.isPrefixOf? t
  let rest ← afterBlanks? '(' rest
  let rest ← afterBlanks? '(' rest
  let rest ← afterBlanks? '\'' rest
  guard (rest.any (· = (CodePoint.ofChar '\'')))
  return rest.takeWhile (· ≠ (CodePoint.ofChar '\''))

/-- The identifier of the first schema record of a text. -/
def schema? (t : Text) : Option Text :=
  (t.firstOccurrence? (fun s => (schemaAtFront? s).map fun x => (x, 1))).map Prod.snd

/-- The line of the first occurrence of a keyword in the header. -/
def keywordLine? (l : Layout) (header : Section) (keyword : Text) : Option Nat :=
  (keyword.indexIn? header.text).map (header.lineOf l.content)

/-- The header has a record. -/
def recordFinding (l : Layout) (header : Section) (keyword : Text) (rule : Rule) : Finding :=
  match keywordLine? l header keyword with
  | none =>
    { Finding.error .valueError rule (keyword ++ " is required but missing from the header") with
      line := some header.startLine, expected := some (keyword ++ "(...) record in HEADER") }
  | some line => { Finding.passed rule (keyword ++ " found") with line := some line }

/-- The header names a schema that is known. -/
def schemaFinding (l : Layout) (rules : SchemaRules) (header : Section) : Finding :=
  let line := (keywordLine? l header schemaKeyword).getD header.startLine
  match schema? header.text with
  | none =>
    { Finding.error .schemaError .fileSchemaRequired "FILE_SCHEMA is missing or malformed" with
      line := some header.startLine, expected := some "FILE_SCHEMA(('<schema identifier>'));" }
  | some schema =>
    if rules.known.contains schema then
      { Finding.passed .fileSchemaValidation ("Valid IFC schema found: " ++ schema) with
        line := some line }
    else
      { Finding.warning .schemaError .fileSchemaValidation
          ("Unknown or outdated IFC schema: " ++ schema ++ ". Recommended schemas: "
            ++ Text.join ", " rules.suggested) with
        line := some line, expected := some ("one of " ++ Text.join ", " rules.known) }

/-- There is no header section. -/
def missingFinding (l : Layout) : Finding :=
  { Finding.error .syntaxError .headerSectionRequired "No HEADER section found" with
    line := some ((l.firstLineWith? "HEADER" true).getD 1)
    expected := some "HEADER; ... ENDSEC;" }

/-- **What there is to say** about the header section. -/
def check (rules : SchemaRules) (l : Layout) : List Finding :=
  match l.header with
  | none => [missingFinding l]
  | some header =>
    [recordFinding l header "FILE_DESCRIPTION" .fileDescriptionRequired,
      recordFinding l header "FILE_NAME" .fileNameRequired,
      schemaFinding l rules header]

end StepCheck.Header
