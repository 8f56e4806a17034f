import StepCheck.Json.Reader
import StepCheck.Main
import StepCheck.Policy.Payload
import StepCheck.Report.Intake
import StepCheck.Run.Pool
import StepCheck.Proofs.Decimal.Sign
import StepCheck.Proofs.Policy.Accepted
import StepCheck.Proofs.Run.Delivery
import StepCheck.Proofs.Run.Perform
import StepCheck.Proofs.Run.Isolation
import StepCheck.Proofs.Run.Interruption
import StepCheck.Proofs.Check.Grammar
import StepCheck.Proofs.Check.Verdict
import StepCheck.Proofs.Utf8.Pieces
import StepCheck.Proofs.Utf8.Decoding
import StepCheck.Proofs.Run.Bytes
import StepCheck.Proofs.Report.Evidence
import StepCheck.Proofs.Policy.Loading
import StepCheck.Proofs.Report.Export
import StepCheck.Proofs.Report.Reread
import StepCheck.Proofs.Step.Arrangement
import StepCheck.Proofs.Check.Returns
import StepCheck.Proofs.Check.Padding
import StepCheck.Proofs.Report.Categories
import StepCheck.Proofs.CommandLine.Kept
import StepCheck.Proofs.Step.Declarations
import StepCheck.Proofs.Check.PropertySetNames
import StepCheck.Proofs.Report.Snippets
import StepCheck.Proofs.Text.Counting
import StepCheck.Proofs.Check.Presence
import StepCheck.Proofs.Check.UnknownTypes
import StepCheck.Proofs.Check.SchemaRecords
import StepCheck.Proofs.Check.SchemaLine
import StepCheck.Proofs.Check.LetterCase
import StepCheck.Proofs.Policy.NormalForm
import StepCheck.Proofs.Policy.Estimates
import StepCheck.Proofs.Report.Counts
import StepCheck.Proofs.Run.Logging
