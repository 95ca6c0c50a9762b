import WorkflowRepair.Settings.Basic
import WorkflowRepair.Toml.Reader
import WorkflowRepair.Toml.Section

/-!
# Settings from a configuration text

Each group of settings is a section of the text. What the text leaves out keeps its default.
-/

namespace WorkflowRepair.Settings

open Toml (Section Table)

/-- The type tags of a section. -/
def nodeTypesOf (group : Section) : Option NodeTypes := do
  let defaults : NodeTypes := {}
  return {
    database := ← group.text? "database" 0 defaults.database
    subWorkflow := ← group.text? "sub_workflow" 1 defaults.subWorkflow
    script := ← group.text? "script" 2 defaults.script }

/-- The credential of a section. -/
def credentialOf (group : Section) : Option Credential := do
  let defaults : Credential := {}
  return {
    key := ← group.text? "key" 0 defaults.key
    id := ← group.text? "id" 1 defaults.id
    name := ← group.text? "name" 2 defaults.name }

/-- The settings of expressions of a section. -/
def expressionOf (group : Section) : Option ExpressionSettings := do
  let defaults : ExpressionSettings := {}
  return {
    parameter := ← group.text? "parameter" 0 defaults.parameter
    barePrefix := ← group.text? "bare_prefix" 1 defaults.barePrefix }

/-- The settings of declarations of a section. -/
def declarationOf (group : Section) : Option DeclarationSettings := do
  let defaults : DeclarationSettings := {}
  return {
    parameter := ← group.text? "parameter" 0 defaults.parameter
    variableName := ← group.text? "variable" 1 defaults.variableName
    marker := ← group.text? "marker" 2 defaults.marker }

/-- The settings of a run of a section. -/
def batchOf (group : Section) : Option BatchSettings := do
  let defaults : BatchSettings := {}
  return { pattern := ← group.text? "pattern" 0 defaults.pattern }

/-- The settings of a table, none if a value is of the wrong kind. -/
def ofTable? (table : Table) : Option Settings := do
  return {
    nodeTypes := ← nodeTypesOf (← Section.ofTable? "node_types" table)
    credential := ← credentialOf (← Section.ofTable? "credentials" table)
    expression := ← expressionOf (← Section.ofTable? "expression" table)
    declaration := ← declarationOf (← Section.ofTable? "declaration" table)
    batch := ← batchOf (← Section.ofTable? "batch" table) }

/-- The settings of a text, none if it is malformed. -/
def ofText? (text : String) : Option Settings := (Toml.read text).bind ofTable?

end WorkflowRepair.Settings
