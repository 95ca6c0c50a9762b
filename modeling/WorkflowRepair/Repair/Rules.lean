import WorkflowRepair.Repair.Expression
import WorkflowRepair.Repair.Script
import WorkflowRepair.Workflow.Document

/-!
# Rules

Three rules repair nodes, each of them nodes of one capability. A rule answers with the repaired
node, with nothing where there is nothing to repair, or with a fault of the node. `patch` runs a
list of rules over a document and records every change and every fault.
-/

namespace WorkflowRepair.Repair

open Json Workflow

/-- A rule. -/
inductive Rule where
  /-- Adds the configured credential to a database node that has none. -/
  | credential
  /-- Corrects the dynamic expression that names the workflow to start. -/
  | expression
  /-- Takes checks out of a script that stand before the declaration. -/
  | declaration
deriving DecidableEq, Repr

namespace Rule

/-- The stable name of a rule in reports. -/
def code : Rule → String
  | .credential => "FP-CRED-001"
  | .expression => "FP-EXPR-001"
  | .declaration => "FP-DECL-001"

/-- What a report says before the label of a node that the rule has changed. -/
def notice (settings : Settings) : Rule → String
  | .credential => "Added credentials to"
  | .expression => "Fixed workflowId syntax in"
  | .declaration => "Fixed " ++ settings.declaration.variableName ++ " check in"

/-- The capability of the nodes that the rule serves. -/
def serves : Rule → Capability
  | .credential => .database
  | .expression => .subWorkflow
  | .declaration => .script

/-- The credentials of a node that had none. -/
def credentials (credential : Credential) : Value :=
  .object [(credential.key,
    .object [("id", .string credential.id), ("name", .string credential.name)])]

/-- The corrected form of a script, none if there is nothing to replace. -/
def fixText (declaration : DeclarationSettings) (script : String) : Option String :=
  match fix declaration.variableName.toList declaration.marker.toList script.toList with
  | .patched code _ => some (String.ofList code)
  | _ => none

/-- The node with a string parameter corrected, none if it is missing or needs no correction. -/
def correct (parameter : String) (correction : String → Option String) (node : Node) :
    Except NodeFault (Option Node) :=
  match node.stringParameter parameter with
  | .error fault => .error fault
  | .ok none => .ok none
  | .ok (some text) =>
    match correction text with
    | none => .ok none
    | some corrected => (node.setStringParameter parameter corrected).map some

/-- The repaired node, none if there is nothing to repair. -/
def apply (settings : Settings) : Rule → Node → Except NodeFault (Option Node)
  | .credential, node => .ok (node.addCredentials? (credentials settings.credential))
  | .expression, node =>
    correct settings.expression.parameter (normalizeText settings.expression.barePrefix) node
  | .declaration, node =>
    correct settings.declaration.parameter (fixText settings.declaration) node

end Rule

/-! ## Running rules -/

/-- One change that one rule made to one node. -/
structure Change where
  code : String
  node : String
  notice : String
deriving DecidableEq, Repr

/-- What a run over a document or a node did. -/
structure Record where
  changes : List Change := []
  failures : List Failure := []
deriving DecidableEq, Repr

namespace Record

/-- Whether something was changed. -/
def changed (record : Record) : Bool := !record.changes.isEmpty

/-- One record behind another. -/
def append (a b : Record) : Record := ⟨a.changes ++ b.changes, a.failures ++ b.failures⟩

instance : Append Record := ⟨append⟩

end Record

/-- Rules in the order in which they run, and the settings that they share. -/
structure RuleSet where
  settings : Settings
  rules : List Rule

/-- All rules. -/
def RuleSet.all (settings : Settings) : RuleSet :=
  ⟨settings, [.credential, .expression, .declaration]⟩

namespace RuleSet

/-- Run one rule on a node whose label is `label`. -/
def runRule (settings : Settings) (label : String) (rule : Rule) (node : Node) : Node × Record :=
  match rule.apply settings node with
  | .ok (some node) => (node, { changes := [⟨rule.code, label, rule.notice settings⟩] })
  | .ok none => (node, {})
  | .error fault => (node, { failures := [.rule rule.code label fault] })

/-- Run rules on a node one after the other. A fault of one does not stop the others. -/
def runRules (settings : Settings) (label : String) : List Rule → Node → Node × Record
  | [], node => (node, {})
  | rule :: rules, node =>
    let (node, first) := runRule settings label rule node
    let (node, rest) := runRules settings label rules node
    (node, first ++ rest)

/-- Run the rules that serve the capability of a node. -/
def patchNode (set : RuleSet) (node : Node) : Node × Record :=
  let capability := node.capability set.settings.nodeTypes
  runRules set.settings node.name (set.rules.filter fun rule => rule.serves = capability) node

/-- Run the rules on one entry of the array of nodes. -/
def patchEntry (set : RuleSet) (index : Nat) : Value → Value × Record
  | .object fields =>
    let (node, record) := set.patchNode ⟨index, fields⟩
    (.object node.fields, record)
  | v => (v, { failures := [.rule "document" (Node.fallbackName index) (.notObject v.kind)] })

/-- Run the rules on the entries from number `index` on. -/
def patchEntries (set : RuleSet) (index : Nat) : List Value → List Value × Record
  | [] => ([], {})
  | entry :: rest =>
    let (entry, first) := set.patchEntry index entry
    let (rest, others) := set.patchEntries (index + 1) rest
    (entry :: rest, first ++ others)

/-- Run the rules on every node of a document. -/
def patch (set : RuleSet) (document : Document) : Document × Record :=
  match Members.get? "nodes" document.root with
  | none => (document, {})
  | some (.array entries) =>
    let (entries, record) := set.patchEntries 0 entries
    ({ document with root := Members.insert "nodes" (.array entries) document.root }, record)
  | some v => (document, { failures := [.shape document.path v.kind] })

end RuleSet

end WorkflowRepair.Repair
