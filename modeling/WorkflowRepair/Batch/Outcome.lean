import WorkflowRepair.Repair.Rules

/-!
# Outcomes and summaries

What became of each document of a run, and the totals over all of them.
-/

namespace WorkflowRepair.Batch

open Files (Path)
open Repair (Change)

/-- What became of one document. -/
structure Outcome where
  /-- The label of the document in reports. -/
  file : String
  path : Path
  /-- Some rule changed the document. -/
  changed : Bool := false
  /-- The changed document was stored. -/
  written : Bool := false
  changes : List Change := []
  /-- The texts of all failures. -/
  errors : List String := []
deriving DecidableEq, Repr

/-- An error with the label of the document it belongs to. -/
structure ErrorEntry where
  file : String
  message : String
deriving DecidableEq, Repr

/-- The totals of a run. -/
structure Summary where
  dryRun : Bool
  filesScanned : Nat := 0
  filesChanged : Nat := 0
  outcomes : List Outcome := []
  errors : List ErrorEntry := []
deriving DecidableEq, Repr

namespace Summary

/-- Take one more outcome into the totals. -/
def record (summary : Summary) (outcome : Outcome) : Summary :=
  { summary with
    filesScanned := summary.filesScanned + 1
    filesChanged := summary.filesChanged + (if outcome.changed then 1 else 0)
    outcomes := summary.outcomes ++ [outcome]
    errors := summary.errors ++ outcome.errors.map fun message => ⟨outcome.file, message⟩ }

/-- Whether some document had an error. -/
def hasErrors (summary : Summary) : Bool := !summary.errors.isEmpty

/-- Whether some document was changed. -/
def hasChanges (summary : Summary) : Bool := summary.filesChanged != 0

end Summary

/-- What an observer of a run is told, as it happens. -/
inductive Event where
  | started (path : Path)
  | applied (path : Path) (change : Change)
  | finished (outcome : Outcome)
  | completed (summary : Summary)
deriving DecidableEq, Repr

end WorkflowRepair.Batch
