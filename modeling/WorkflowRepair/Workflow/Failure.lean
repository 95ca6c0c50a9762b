import WorkflowRepair.Json.Reader
import WorkflowRepair.Settings.Fault
import WorkflowRepair.Workflow.Node

/-!
# Failures

Everything that can go wrong in a run: where it went wrong, and why. Failures of the settings and
of the enumeration of a directory stop a run before its first document; all others are recorded
with the document they belong to.
-/

namespace WorkflowRepair.Workflow

open Files (Path)

/-- Where something went wrong. -/
inductive Site where
  /-- While a document was read. -/
  | load (path : Path)
  /-- While a document was written. -/
  | write (path : Path)
  /-- While a rule was applied to a node. -/
  | rule (code node : String)
  /-- While the nodes of a document were looked for. -/
  | shape (path : Path)
  /-- While the documents of a directory were looked for. -/
  | discovery (path : Path)
  /-- While the settings were put together. -/
  | settings
deriving DecidableEq, Repr

namespace Site

/-- A short name for the kind of site. -/
def kind : Site → String
  | .load _ => "parse"
  | .write _ => "write"
  | .rule .. => "rule"
  | .shape _ => "shape"
  | .discovery _ => "discovery"
  | .settings => "config"

/-- The text of a failure at the site, given the wording of its cause. -/
def describe (cause : String) : Site → String
  | .load path => "Failed to load " ++ path.display ++ ": " ++ cause
  | .write path => "Failed to write " ++ path.display ++ ": " ++ cause
  | .rule code node => "Rule " ++ code ++ " failed on node '" ++ node ++ "': " ++ cause
  | .shape path => "Unexpected document shape in " ++ path.display ++ ": " ++ cause
  | .discovery path => "Failed to enumerate " ++ path.display ++ ": " ++ cause
  | .settings => "Invalid configuration: " ++ cause

end Site

/-- Why a document cannot be read. -/
inductive LoadCause where
  | file (fault : Files.Fault)
  | syntactic (fault : Json.SyntaxError)
  | root (found : Json.Kind)
deriving DecidableEq, Repr

/-- The wording of a load cause. -/
def LoadCause.message : LoadCause → String
  | .file fault => fault.message
  | .syntactic fault => fault.message
  | .root found => "expected a JSON object at the root, found " ++ found.phrase

/-- Why the documents of a directory cannot be found. -/
inductive DiscoveryCause where
  | file (fault : Files.Fault)
  | pattern (fault : Glob.Fault)
deriving DecidableEq, Repr

/-- The wording of a discovery cause. -/
def DiscoveryCause.message : DiscoveryCause → String
  | .file fault => fault.message
  | .pattern fault => "invalid pattern '" ++ fault.pattern ++ "': " ++ fault.message

/-- A failure. -/
inductive Failure where
  | load (path : Path) (cause : LoadCause)
  | write (path : Path) (cause : Files.Fault)
  | rule (code node : String) (cause : NodeFault)
  /-- The nodes of a document are not an array. -/
  | shape (path : Path) (found : Json.Kind)
  | discovery (path : Path) (cause : DiscoveryCause)
  | settings (cause : Settings.Fault)
deriving DecidableEq, Repr

namespace Failure

/-- Where the failure arose. -/
def site : Failure → Site
  | .load path _ => .load path
  | .write path _ => .write path
  | .rule code node _ => .rule code node
  | .shape path _ => .shape path
  | .discovery path _ => .discovery path
  | .settings _ => .settings

/-- The wording of the cause. -/
def cause : Failure → String
  | .load _ cause => cause.message
  | .write _ cause => cause.message
  | .rule _ _ cause => cause.message
  | .shape _ found => "'nodes' must be an array, found " ++ found.phrase
  | .discovery _ cause => cause.message
  | .settings cause => cause.message

/-- The text of the failure. -/
def message (failure : Failure) : String := failure.site.describe failure.cause

/-- A short name for the kind of failure. -/
def kind (failure : Failure) : String := failure.site.kind

end Failure

end WorkflowRepair.Workflow
