import WorkflowRepair.Batch.Outcome
import WorkflowRepair.Files.Access

/-!
# Runs

A run takes documents one after the other: it reads a document, applies the rules, and stores the
document if it was changed. Nothing is shared between documents, and what goes wrong with one is
recorded in its outcome. `tell` passes on every event to an observer.
-/

namespace WorkflowRepair.Batch

open Files (Path FileAccess DirectoryEntry)
open Repair (RuleSet Record)
open Workflow (Document Failure)

/-- Whether changed documents are stored. -/
inductive Mode where
  | write
  | dryRun
deriving DecidableEq, Repr

/-- The outcome of a document that cannot be read. -/
def Outcome.ofFailure (path : Path) (failure : Failure) : Outcome :=
  { file := path.label, path, errors := [failure.message] }

/-- The outcome of a document after the rules, before it is stored. -/
def Outcome.ofRecord (path : Path) (record : Record) : Outcome :=
  { file := path.label
    path
    changed := record.changed
    changes := record.changes
    errors := record.failures.map Failure.message }

/-- The outcome after an attempt to store the document. -/
def Outcome.stored (outcome : Outcome) : Except Files.Fault Unit → Outcome
  | .ok () => { outcome with written := true }
  | .error fault =>
    { outcome with errors := outcome.errors ++ [(Failure.write outcome.path fault).message] }

/-! ## Finding documents -/

/-- The names of the regular files that the pattern stands for, sorted by their bytes. -/
def selectNames (pattern : Glob.Pattern) (entries : List DirectoryEntry) : List (List UInt8) :=
  let selected := entries.filter fun entry => entry.isFile && Glob.accepts pattern entry.name
  (selected.map (·.name)).mergeSort fun a b => decide (a ≤ b)

section

variable {m : Type → Type} [Monad m] [FileAccess m]

/-- The documents of a directory: the regular files in it whose names the pattern stands for. -/
def discover (directory : Path) (pattern : String) : m (Except Failure (List Path)) := do
  match Glob.read pattern with
  | .error fault => return .error (.discovery directory (.pattern fault))
  | .ok glob =>
    match ← FileAccess.list directory with
    | .error fault => return .error (.discovery directory (.file fault))
    | .ok entries =>
      return .ok ((selectNames glob entries).map fun name => directory.join ⟨name⟩)

/-! ## Running -/

/-- Read a document. -/
def load (path : Path) : m (Except Failure Document) := do
  match ← FileAccess.read path with
  | .error fault => return .error (.load path (.file fault))
  | .ok bytes => return Document.ofBytes path bytes

/-- Store a document under its path. -/
def store (document : Document) : m (Except Files.Fault Unit) :=
  Files.save document.path document.toText.toUTF8

/-- Pass on the changes to one document. -/
def tellChanges (tell : Event → m Unit) (path : Path) : List Repair.Change → m Unit
  | [] => return ()
  | change :: rest => do
    tell (.applied path change)
    tellChanges tell path rest

/-- Read a document, apply the rules, and store it if it was changed. -/
def patchFile (rules : RuleSet) (mode : Mode) (tell : Event → m Unit) (path : Path) :
    m Outcome := do
  match ← load path with
  | .error failure => return .ofFailure path failure
  | .ok document =>
    let (document, record) := rules.patch document
    tellChanges tell path record.changes
    if record.changed ∧ mode = .write then
      return (Outcome.ofRecord path record).stored (← store document)
    else return .ofRecord path record

/-- Take one document. -/
def runFile (rules : RuleSet) (mode : Mode) (tell : Event → m Unit) (path : Path) :
    m Outcome := do
  tell (.started path)
  let outcome ← patchFile rules mode tell path
  tell (.finished outcome)
  return outcome

/-- Take documents in order, and add their outcomes to a summary. -/
def runFilesFrom (rules : RuleSet) (mode : Mode) (tell : Event → m Unit) :
    Summary → List Path → m Summary
  | summary, [] => return summary
  | summary, path :: paths => do
    let outcome ← runFile rules mode tell path
    runFilesFrom rules mode tell (summary.record outcome) paths

/-- Take documents in order. -/
def runFiles (rules : RuleSet) (mode : Mode) (tell : Event → m Unit) (paths : List Path) :
    m Summary := do
  let summary ← runFilesFrom rules mode tell { dryRun := mode = .dryRun } paths
  tell (.completed summary)
  return summary

/-- Take the documents of a directory. -/
def runDirectory (rules : RuleSet) (mode : Mode) (tell : Event → m Unit) (directory : Path)
    (pattern : String) : m (Except Failure Summary) := do
  match ← discover directory pattern with
  | .error failure => return .error failure
  | .ok paths => return .ok (← runFiles rules mode tell paths)

end

end WorkflowRepair.Batch
