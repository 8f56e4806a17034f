import StepCheck.Report.Payload
import StepCheck.Json.Printer
import StepCheck.Yaml.Printer

/-!
# Exporting reports

Reports are exported as YAML or JSON: one report as a document of its own, several as a batch.

* `ExportFormat` — the two formats;
* `Report.dump`, `Report.dumpBatch` — the documents;
* `Report.dumpAll` — the document for a list of reports.
-/

namespace StepCheck

/-- **A format** of exported documents. -/
inductive ExportFormat
  | yaml
  | json
deriving DecidableEq

namespace ExportFormat

/-- All formats. -/
def all : List ExportFormat := [yaml, json]

/-- The name of a format. -/
def name : ExportFormat → Text
  | yaml => "yaml"
  | json => "json"

/-- The format of a name, as written. -/
def named? (t : Text) : Option ExportFormat := all.find? fun f => f.name = t

/-- The text about a name of no format. -/
def unknownMessage (t : Text) : Text :=
  "Unsupported export format: " ++ t.quoted ++ "; expected one of "
    ++ Text.join ", " (all.map name)

/-- A datum as a document of a format. -/
def render : ExportFormat → Datum → Text
  | yaml, d => Yaml.document d
  | json, d => Json.document d

end ExportFormat

/-- **Why there is no document.** -/
inductive ExportError
  | accuracy (e : AccuracyError)
  | unknownFormat (name : Text)
deriving DecidableEq

namespace Report

/-- A datum as a document of the named format. -/
def renderNamed (format : Text) (d : Except AccuracyError Datum) : Except ExportError Text :=
  match d, ExportFormat.named? format with
  | .error e, _ => .error (.accuracy e)
  | .ok d, some f => .ok (f.render d)
  | .ok _, none => .error (.unknownFormat format)

/-- **The document of one report.** -/
def dump (format : Text) (r : Report) : Except ExportError Text := renderNamed format r.payload

/-- **The document of a batch** of reports. -/
def dumpBatch (format : Text) (rs : List Report) : Except ExportError Text :=
  renderNamed format (batchPayload rs)

/-- **The document for a list of reports**: that of the report if there is one, else the batch. -/
def dumpAll (format : Text) : List Report → Except ExportError Text
  | [r] => dump format r
  | rs => dumpBatch format rs

end Report

end StepCheck
