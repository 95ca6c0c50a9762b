import WorkflowRepair.Main
import WorkflowRepair.Files.Tree
import WorkflowRepair.Text.Arabic
import WorkflowRepair.Text.Template
import WorkflowRepair.Proofs.Script.Occurrence
import WorkflowRepair.Proofs.Script.Search
import WorkflowRepair.Proofs.Script.Marker
import WorkflowRepair.Proofs.Script.Pass
import WorkflowRepair.Proofs.Script.Loop
import WorkflowRepair.Proofs.Script.Repeated
import WorkflowRepair.Proofs.Script.Limit
import WorkflowRepair.Proofs.Script.Behind
import WorkflowRepair.Proofs.Json.Members
import WorkflowRepair.Proofs.Json.Reading
import WorkflowRepair.Proofs.Json.Printing
import WorkflowRepair.Proofs.Workflow.Codec
import WorkflowRepair.Proofs.Workflow.Numbers
import WorkflowRepair.Proofs.Rules.Correction
import WorkflowRepair.Proofs.Rules.Dispatch
import WorkflowRepair.Proofs.Rules.Idempotence
import WorkflowRepair.Proofs.Rules.Accounting
import WorkflowRepair.Proofs.Script.Completed
import WorkflowRepair.Proofs.Script.Laid
import WorkflowRepair.Proofs.Script.Inert
import WorkflowRepair.Proofs.Script.Settled
import WorkflowRepair.Proofs.Script.Line
import WorkflowRepair.Proofs.Json.Grammar
import WorkflowRepair.Proofs.Json.Number
import WorkflowRepair.Proofs.Json.Fraction
import WorkflowRepair.Proofs.Json.Stored
import WorkflowRepair.Proofs.Files.Tree
import WorkflowRepair.Proofs.Files.Machine
import WorkflowRepair.Proofs.Files.Change
import WorkflowRepair.Proofs.Toml.Objects
import WorkflowRepair.Proofs.Batch.Final
import WorkflowRepair.Proofs.Batch.Run
import WorkflowRepair.Proofs.Settings.Loading
import WorkflowRepair.Proofs.Log.Begin
import WorkflowRepair.Proofs.Command.Again
import WorkflowRepair.Proofs.Files.Disk
import WorkflowRepair.Proofs.Batch.Isolation
import WorkflowRepair.Proofs.Batch.Rehearsal
import WorkflowRepair.Proofs.Command.Rehearsal
import WorkflowRepair.Proofs.Rules.Braces
import WorkflowRepair.Proofs.Command.Payloads
import WorkflowRepair.Proofs.Rules.Order
import WorkflowRepair.Proofs.Batch.Tally
import WorkflowRepair.Proofs.Command.Deeds
import WorkflowRepair.Proofs.Command.Printing
import WorkflowRepair.Proofs.Command.Containment
import WorkflowRepair.Proofs.Report.Complete
import WorkflowRepair.Proofs.Command.Reported
import WorkflowRepair.Proofs.Rules.ClosedForm
import WorkflowRepair.Proofs.Text.Replace
import WorkflowRepair.Proofs.Text.Leftovers
import WorkflowRepair.Proofs.Script.Splice
import WorkflowRepair.Proofs.Script.Exact
import WorkflowRepair.Proofs.Script.Bound
import WorkflowRepair.Proofs.Settings.Overriding
import WorkflowRepair.Proofs.Files.Refill
import WorkflowRepair.Proofs.Batch.Beside
import WorkflowRepair.Proofs.Command.Overriding
import WorkflowRepair.Proofs.Text.Filling
import WorkflowRepair.Proofs.Glob.Star
import WorkflowRepair.Proofs.Files.Name
import WorkflowRepair.Proofs.Batch.Discovery
import WorkflowRepair.Proofs.Batch.Sinks
