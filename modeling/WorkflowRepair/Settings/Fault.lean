import WorkflowRepair.Files.Path
import WorkflowRepair.Files.Fault
import WorkflowRepair.Glob.Basic

/-!
# Faults of the settings

What can be wrong with the settings of a run, or with the contract of a validation.
-/

namespace WorkflowRepair.Settings

open Files (Path)

/-- The settings that may not be blank. -/
inductive Field where
  | databaseType
  | subWorkflowType
  | scriptType
  | credentialKey
  | credentialId
  | credentialName
  | expressionParameter
  | barePrefix
  | scriptParameter
  | marker
  | pattern
deriving DecidableEq, Repr

/-- The name of a setting: its section and its key. -/
def Field.name : Field → String
  | .databaseType => "node_types.database"
  | .subWorkflowType => "node_types.sub_workflow"
  | .scriptType => "node_types.script"
  | .credentialKey => "credentials.key"
  | .credentialId => "credentials.id"
  | .credentialName => "credentials.name"
  | .expressionParameter => "expression.parameter"
  | .barePrefix => "expression.bare_prefix"
  | .scriptParameter => "declaration.parameter"
  | .marker => "declaration.marker"
  | .pattern => "batch.pattern"

/-- Why settings are refused. -/
inductive Fault where
  /-- The settings file that was asked for does not exist. -/
  | missing (path : Path)
  /-- The settings file cannot be read. -/
  | unreadable (path : Path) (cause : Files.Fault)
  /-- The settings file is not well formed, or a setting is of the wrong kind. -/
  | malformed (path : Path)
  | blank (field : Field)
  | sharedNodeType
  /-- A value that begins with `=` needs no repair, so such a beginning cannot be bare. -/
  | prefixedByEquals
  | notIdentifier (name : String)
  /-- The marker would be found again where it replaces a check. -/
  | markerMentions
  | badPattern (cause : Glob.Fault)
  /-- The schema of a contract is not one. -/
  | badContract
deriving DecidableEq, Repr

/-- The wording of a settings fault. -/
def Fault.message : Fault → String
  | .missing path => "config file " ++ path.display ++ " does not exist"
  | .unreadable path cause =>
    "failed to read config file " ++ path.display ++ ": " ++ cause.message
  | .malformed path => "failed to parse config file " ++ path.display
  | .blank field => field.name ++ " cannot be empty"
  | .sharedNodeType =>
    "node_types.database, node_types.sub_workflow and node_types.script must be distinct"
  | .prefixedByEquals => "expression.bare_prefix must not start with '='"
  | .notIdentifier name => "declaration.variable '" ++ name ++ "' is not a valid identifier"
  | .markerMentions =>
    "declaration.marker must not contain the check or declaration it replaces"
  | .badPattern cause =>
    "batch.pattern '" ++ cause.pattern ++ "' is not a valid glob: " ++ cause.message
  | .badContract => "invalid contract schema"

end WorkflowRepair.Settings
