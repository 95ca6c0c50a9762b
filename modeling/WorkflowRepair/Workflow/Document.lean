import WorkflowRepair.Json.Printer
import WorkflowRepair.Json.Reader
import WorkflowRepair.Workflow.Failure

/-!
# Documents

A workflow document is a JSON object, kept as it was read, so that everything no repair touches
comes out again as it went in. Its nodes are the items of the array under `nodes`.
-/

namespace WorkflowRepair.Workflow

open Files (Path)
open Json

/-- A document and the path it is stored under. -/
structure Document where
  path : Path
  root : Members

/-- An item of the array of nodes: a node, or a value that cannot be one. -/
inductive Slot where
  | node (node : Node)
  | notObject (index : Nat) (value : Value)

namespace Document

/-- Read a document from its text. -/
def ofText (path : Path) (text : String) : Except Failure Document :=
  match readText text with
  | .error fault => .error (.load path (.syntactic fault))
  | .ok (.object root) => .ok ⟨path, root⟩
  | .ok v => .error (.load path (.root v.kind))

/-- Read a document from the bytes of a file. -/
def ofBytes (path : Path) (bytes : ByteArray) : Except Failure Document :=
  match String.fromUTF8? bytes with
  | some text => ofText path text
  | none => .error (.load path (.file .notText))

/-- The document as it is written to a file. -/
def toText (document : Document) : String := (Value.object document.root).pretty ++ "\n"

/-- The number of nodes, zero if there is no array of them. -/
def nodeCount (document : Document) : Nat :=
  match Members.get? "nodes" document.root with
  | some (.array entries) => entries.length
  | _ => 0

/-- The slot of one entry. -/
def slotOf (index : Nat) : Value → Slot
  | .object fields => .node ⟨index, fields⟩
  | v => .notObject index v

/-- The entries of the array of nodes, empty if there is no member for them. -/
def entries (document : Document) : Except Failure (List Value) :=
  match Members.get? "nodes" document.root with
  | none => .ok []
  | some (.array entries) => .ok entries
  | some v => .error (.shape document.path v.kind)

/-- The slots of a document, in order. -/
def slots (document : Document) : Except Failure (List Slot) :=
  document.entries.map fun entries => entries.mapIdx slotOf

end Document

end WorkflowRepair.Workflow
