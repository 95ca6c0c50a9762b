import WorkflowRepair.Report.Json
import WorkflowRepair.Report.Text

/-!
# Where reports go

A report turns events into text, and an output takes bytes for as long as it has room.
-/

namespace WorkflowRepair.Report

open Batch

/-- A kind of report. -/
inductive Format where
  /-- Lines; the flag says whether documents are stored. -/
  | text (dryRun : Bool)
  | json
  /-- No report at all. -/
  | silent
deriving DecidableEq, Repr

/-- What the report says about an event. -/
def Format.describe : Format → Event → String
  | .text dryRun, event => Report.text dryRun event
  | .json, .completed summary => Report.json summary
  | .json, _ => ""
  | .silent, _ => ""

/-- An output that takes a limited number of bytes, or any number. -/
structure Output where
  written : List UInt8 := []
  room : Option Nat := none

/-- Write bytes. If there is room for some of them only, those are kept. -/
def Output.write (output : Output) (bytes : List UInt8) : Output :=
  match output.room with
  | none => { output with written := output.written ++ bytes }
  | some room =>
    { written := output.written ++ bytes.take room, room := some (room - bytes.length) }

end WorkflowRepair.Report
