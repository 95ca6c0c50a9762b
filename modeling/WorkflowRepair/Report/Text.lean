import WorkflowRepair.Batch.Outcome

/-!
# The report in lines

One line when a document is begun, one for each change, one when it is done with, and the totals
between two rules at the end.
-/

namespace WorkflowRepair.Report

open Batch

/-- The rule above and below the totals. -/
def ruler : String := String.ofList (List.replicate 60 '=')

/-- The line for a document that is done with. -/
def verdict (dryRun : Bool) (outcome : Outcome) : String :=
  if outcome.changed then
    if dryRun then "  ~ Would modify file"
    else if outcome.written then "  * File modified"
    else "  ! File changed in memory but not written"
  else if outcome.errors.isEmpty then "  - No changes needed"
  else "  ! Skipped"

/-- The lines for the errors of a run. -/
def errorLines (summary : Summary) : List String :=
  if summary.hasErrors then
    ("Errors: " ++ toString summary.errors.length) ::
      summary.errors.map fun entry => "  ! [" ++ entry.file ++ "] " ++ entry.message
  else []

/-- The line with the totals. -/
def totals (summary : Summary) : String :=
  "Summary: " ++ toString summary.filesChanged ++ " of " ++ toString summary.filesScanned ++
    " files " ++ (if summary.dryRun then "would be modified" else "modified")

/-- The lines for one event. -/
def lines (dryRun : Bool) : Event → List String
  | .started path => ["Patching: " ++ path.label]
  | .applied _ change => ["  + " ++ change.notice ++ ": " ++ change.node]
  | .finished outcome => [verdict dryRun outcome]
  | .completed summary => ruler :: totals summary :: errorLines summary ++ [ruler]

/-- The text for one event: its lines, each with its end. -/
def text (dryRun : Bool) (event : Event) : String :=
  String.join ((lines dryRun event).map (· ++ "\n"))

end WorkflowRepair.Report
