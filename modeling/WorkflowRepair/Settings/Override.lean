import WorkflowRepair.Settings.Basic
import WorkflowRepair.Text.Blank

/-!
# Overrides from the environment

Three settings can be given by environment variables. A variable that is not set or blank leaves
its setting as it is.
-/

namespace WorkflowRepair.Settings

/-- A setting that the environment can give. -/
inductive Override where
  | credentialId
  | credentialName
  | pattern
deriving DecidableEq, Repr

namespace Override

/-- The environment variable. -/
def variableName : Override → String
  | .credentialId => "FLOWPATCH_CREDENTIAL_ID"
  | .credentialName => "FLOWPATCH_CREDENTIAL_NAME"
  | .pattern => "FLOWPATCH_PATTERN"

/-- All of them. -/
def all : List Override := [.credentialId, .credentialName, .pattern]

/-- The settings with this one replaced. -/
def put (value : String) (settings : Settings) : Override → Settings
  | .credentialId => { settings with credential := { settings.credential with id := value } }
  | .credentialName => { settings with credential := { settings.credential with name := value } }
  | .pattern => { settings with batch := { settings.batch with pattern := value } }

end Override

/-- What the environment gives for each override. -/
abbrev Environment := Override → Option String

/-- The value that the environment gives, if it is not blank. -/
def given? (environment : Environment) (override : Override) : Option String :=
  (environment override).filter fun value => !Text.isBlankText value

/-- The settings with what the environment gives. -/
def applyOverrides (environment : Environment) (settings : Settings) : Settings :=
  Override.all.foldl (fun settings override =>
    match given? environment override with
    | some value => override.put value settings
    | none => settings) settings

end WorkflowRepair.Settings
