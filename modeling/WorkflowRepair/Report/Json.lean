import WorkflowRepair.Batch.Outcome
import WorkflowRepair.Json.Printer

/-!
# The report as JSON

One JSON object with the totals, the outcomes and the errors of a run, written when the run is over.
A path is written as text; the report breaks off before the first path that is not text.
-/

namespace WorkflowRepair.Report

open Batch Json

/-- A list of texts as a value. -/
def textsValue (texts : List String) : Value := .array (texts.map .string)

/-- A change as a value. -/
def changeValue (change : Repair.Change) : Value :=
  .object [("code", .string change.code), ("node", .string change.node),
    ("notice", .string change.notice)]

/-- The members of an outcome up to its path, with the value that stands for the path. -/
def outcomeHead (path : Value) (outcome : Outcome) : Members :=
  [("file", .string outcome.file), ("path", path)]

/-- An outcome as a value, with the value that stands for its path. -/
def outcomeValue (path : Value) (outcome : Outcome) : Value :=
  .object (outcomeHead path outcome ++
    [("changed", .bool outcome.changed), ("written", .bool outcome.written),
      ("changes", .array (outcome.changes.map changeValue)),
      ("errors", textsValue outcome.errors)])

/-- An error as a value. -/
def errorValue (entry : ErrorEntry) : Value :=
  .object [("file", .string entry.file), ("message", .string entry.message)]

/-- The members of a summary up to its outcomes. -/
def summaryHead (summary : Summary) (outcomes : List Value) : Members :=
  [("dry_run", .bool summary.dryRun), ("files_scanned", .ofNat summary.filesScanned),
    ("files_changed", .ofNat summary.filesChanged), ("outcomes", .array outcomes)]

/-- A summary as a value, given its outcomes as values. -/
def summaryValue (summary : Summary) (outcomes : List Value) : Value :=
  .object (summaryHead summary outcomes ++
    [("errors", .array (summary.errors.map errorValue))])

/-- The outcomes as values up to the first whose path is not text, and that one if there is one. -/
def splitOutcomes : List Outcome → List Value × Option Outcome
  | [] => ([], none)
  | outcome :: rest =>
    match outcome.path.text? with
    | none => ([], some outcome)
    | some path =>
      let (values, stop) := splitOutcomes rest
      (outcomeValue (.string path) outcome :: values, stop)

/-- What closes the report behind the path of an outcome. -/
def closing : List Char :=
  newline 2 ++ '}' :: (newline 1 ++ ']' :: (newline 0 ++ ['}']))

/-- The report of a summary. Where it breaks off, it is the report of the outcomes so far, with
nothing for the path and without what would close it. -/
def json (summary : Summary) : String :=
  match splitOutcomes summary.outcomes with
  | (values, none) => (summaryValue summary values).pretty ++ "\n"
  | (values, some outcome) =>
    let begun := Value.object (outcomeHead (.string "") outcome)
    let written := (Value.object (summaryHead summary (values ++ [begun]))).prettyChars 0
    String.ofList (written.take (written.length - (2 + closing.length)))

end WorkflowRepair.Report
