import WorkflowRepair.Json.Value
import WorkflowRepair.Settings.Basic

/-!
# Nodes

A node is an object in a workflow document. Its type tag decides which repair serves it; a repair
reads and writes its credentials and its string parameters and nothing else.
-/

namespace WorkflowRepair.Workflow

open Json

/-- What a node does, as far as repairs care. -/
inductive Capability where
  /-- Talks to a database and needs a credential. -/
  | database
  /-- Starts another workflow. -/
  | subWorkflow
  /-- Runs a script. -/
  | script
  /-- Anything else. -/
  | other
deriving DecidableEq, Repr

/-- The name of a capability. -/
def Capability.name : Capability → String
  | .database => "database"
  | .subWorkflow => "sub_workflow"
  | .script => "script"
  | .other => "other"

/-- The capability that a type tag stands for. -/
def Capability.classify (types : NodeTypes) (tag : String) : Capability :=
  if tag = types.database then .database
  else if tag = types.subWorkflow then .subWorkflow
  else if tag = types.script then .script
  else .other

/-- Why a node cannot be repaired. -/
inductive NodeFault where
  /-- The entry is not an object. -/
  | notObject (found : Kind)
  /-- Its parameters are not an object. -/
  | parametersNotObject (found : Kind)
  /-- It has no parameters to write to. -/
  | noParameters
deriving DecidableEq, Repr

/-- The wording of a node fault. -/
def NodeFault.message : NodeFault → String
  | .notObject found => "node entry is " ++ found.phrase ++ ", not an object"
  | .parametersNotObject found => "'parameters' must be an object, found " ++ found.phrase
  | .noParameters => "node has no parameters to update"

/-- A node: its place among the nodes of the document, and its members. -/
structure Node where
  index : Nat
  fields : Members

namespace Node

/-- The label of a node without a name. -/
def fallbackName (index : Nat) : String := "node_" ++ toString index

/-- The label of the node in reports, which need not be unique. -/
def name (node : Node) : String :=
  ((Members.get? "name" node.fields).bind Value.text?).getD (fallbackName node.index)

/-- The type tag, empty if there is none. -/
def typeTag (node : Node) : String :=
  ((Members.get? "type" node.fields).bind Value.text?).getD ""

/-- The capability of the node. -/
def capability (types : NodeTypes) (node : Node) : Capability :=
  Capability.classify types node.typeTag

/-- Whether the node has a member for credentials, of whatever kind. -/
def hasCredentials (node : Node) : Bool := Members.contains "credentials" node.fields

/-- The node with these credentials, none if it has some already. -/
def addCredentials? (credentials : Value) (node : Node) : Option Node :=
  if node.hasCredentials then none
  else some { node with fields := Members.insert "credentials" credentials node.fields }

/-- The parameters, none if there is no such member. -/
def parameters (node : Node) : Except NodeFault (Option Members) :=
  match Members.get? "parameters" node.fields with
  | none => .ok none
  | some (.object params) => .ok (some params)
  | some v => .error (.parametersNotObject v.kind)

/-- A parameter that is a string. -/
def stringParameter (key : String) (node : Node) : Except NodeFault (Option String) :=
  node.parameters.map fun params => (params.bind (Members.get? key)).bind Value.text?

/-- The node with a string parameter written. -/
def setStringParameter (key value : String) (node : Node) : Except NodeFault Node :=
  match node.parameters with
  | .error fault => .error fault
  | .ok none => .error .noParameters
  | .ok (some params) =>
    .ok { node with
      fields :=
        Members.insert "parameters" (.object (Members.insert key (.string value) params))
          node.fields }

end Node

end WorkflowRepair.Workflow
