import WorkflowRepair.Proofs.Json.Printing
import WorkflowRepair.Report.Json

/-!
# Reading a report back

What a summary is written as in a report can be read back from the value: each part has a reader of
its own, which looks for members by their names, and takes back what was written
(`summaryOf?_summaryValue`). A path is taken back from its text, so only a path that is text has a
value to be read from.
-/

namespace WorkflowRepair.Report

open Batch Json
open Files (Path)
open Repair (Change)

/-! ## Readers -/

/-- The value of a member, as it is read. -/
def memberOf? {α : Type} (key : String) (read : Value → Option α) : Value → Option α
  | .object members => (Members.get? key members).bind read
  | _ => none

/-- The items of an array, as they are read. -/
def listOf? {α : Type} (read : Value → Option α) : Value → Option (List α)
  | .array items => items.mapM read
  | _ => none

/-- A truth value. -/
def boolOf? : Value → Option Bool
  | .bool b => some b
  | _ => none

/-- A count. -/
def natOf? : Value → Option Nat
  | .number (.integer (.ofNat n)) => some n
  | _ => none

/-- A change. -/
def changeOf? (v : Value) : Option Change := do
  return {
    code := ← memberOf? "code" Value.text? v
    node := ← memberOf? "node" Value.text? v
    notice := ← memberOf? "notice" Value.text? v }

/-- The outcome of a document. -/
def outcomeOf? (v : Value) : Option Outcome := do
  return {
    file := ← memberOf? "file" Value.text? v
    path := .ofString (← memberOf? "path" Value.text? v)
    changed := ← memberOf? "changed" boolOf? v
    written := ← memberOf? "written" boolOf? v
    changes := ← memberOf? "changes" (listOf? changeOf?) v
    errors := ← memberOf? "errors" (listOf? Value.text?) v }

/-- An error. -/
def errorOf? (v : Value) : Option ErrorEntry := do
  return {
    file := ← memberOf? "file" Value.text? v
    message := ← memberOf? "message" Value.text? v }

/-- The summary of a run. -/
def summaryOf? (v : Value) : Option Summary := do
  return {
    dryRun := ← memberOf? "dry_run" boolOf? v
    filesScanned := ← memberOf? "files_scanned" natOf? v
    filesChanged := ← memberOf? "files_changed" natOf? v
    outcomes := ← memberOf? "outcomes" (listOf? outcomeOf?) v
    errors := ← memberOf? "errors" (listOf? errorOf?) v }

/-! ## Taking back -/

theorem listOf?_array {α : Type} {read : Value → Option α} {write : α → Value} {items : List α}
    (h : ∀ a ∈ items, read (write a) = some a) :
    listOf? read (.array (items.map write)) = some items := by
  show (items.map write).mapM read = some items
  induction items with
  | nil => rfl
  | cons a items ih =>
    have hrest := ih fun b hb => h b (List.mem_cons_of_mem a hb)
    rw [List.map_cons, List.mapM_cons, h a List.mem_cons_self, hrest]
    rfl

theorem changeOf?_changeValue (change : Change) : changeOf? (changeValue change) = some change :=
  rfl

theorem listOf?_textsValue (texts : List String) :
    listOf? Value.text? (textsValue texts) = some texts :=
  listOf?_array fun _ _ => rfl

/-- The value of an outcome has the path as the text that stands for it. -/
theorem outcomeOf?_outcomeValue (text : String) (outcome : Outcome) :
    outcomeOf? (outcomeValue (.string text) outcome) =
      some { outcome with path := .ofString text } := by
  have hchanges : listOf? changeOf? (.array (outcome.changes.map changeValue)) =
      some outcome.changes := listOf?_array fun change _ => changeOf?_changeValue change
  have herrors := listOf?_textsValue outcome.errors
  simp [outcomeOf?, outcomeValue, outcomeHead, memberOf?, Members.get?, Value.text?, boolOf?,
    hchanges, herrors]

theorem errorOf?_errorValue (entry : ErrorEntry) : errorOf? (errorValue entry) = some entry :=
  rfl

theorem summaryOf?_summaryValue (summary : Summary) {values : List Value}
    (h : listOf? outcomeOf? (.array values) = some summary.outcomes) :
    summaryOf? (summaryValue summary values) = some summary := by
  have herrors : listOf? errorOf? (.array (summary.errors.map errorValue)) = some summary.errors :=
    listOf?_array fun entry _ => errorOf?_errorValue entry
  simp [summaryOf?, summaryValue, summaryHead, memberOf?, Members.get?, boolOf?, natOf?,
    Value.ofNat, h, herrors]

end WorkflowRepair.Report
