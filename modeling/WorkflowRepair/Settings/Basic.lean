/-!
# Settings

What the repairs look for and what they put in its place. Every field has a default, so that
nothing has to be configured.
-/

namespace WorkflowRepair

/-- The type tags of the nodes that are repaired. -/
structure NodeTypes where
  database : String := "n8n-nodes-base.postgres"
  subWorkflow : String := "n8n-nodes-base.executeWorkflow"
  script : String := "n8n-nodes-base.code"
deriving DecidableEq, Repr

/-- The credential that a database node gets if it has none. -/
structure Credential where
  key : String := "postgres"
  id : String := "postgres-resto-bot"
  name : String := "PostgreSQL Resto Bot"
deriving DecidableEq, Repr

/-- Where dynamic expressions stand, and how one begins that has lost its `=`. -/
structure ExpressionSettings where
  parameter : String := "workflowId"
  barePrefix : String := "\x7b$env"
deriving DecidableEq, Repr

/-- Where scripts stand, the variable they check too early, and what replaces such a check. -/
structure DeclarationSettings where
  parameter : String := "jsCode"
  variableName : String := "denyReason"
  marker : String := "// denyReason check moved after declaration"
deriving DecidableEq, Repr

/-- Which files of a directory are documents. -/
structure BatchSettings where
  pattern : String := "W*.json"
deriving DecidableEq, Repr

/-- All settings. -/
structure Settings where
  nodeTypes : NodeTypes := {}
  credential : Credential := {}
  expression : ExpressionSettings := {}
  declaration : DeclarationSettings := {}
  batch : BatchSettings := {}
deriving DecidableEq, Repr

end WorkflowRepair
