import WorkflowRepair.Files.Access
import WorkflowRepair.Settings.Decoding
import WorkflowRepair.Settings.Override
import WorkflowRepair.Settings.Validation

/-!
# Settings of a run

The settings of a run come in layers: the defaults, a settings file, and the environment, each above
the one before. What results is checked.
-/

namespace WorkflowRepair.Settings

open Files (Path FileAccess)

/-- The name of the settings file of a directory. -/
def fileName : String := "flowpatch.toml"

/-- The settings file of a directory. -/
def defaultFile (directory : Path) : Path := directory.join (.ofString fileName)

/-- The layers above the settings of a file, and the check of what results. -/
def finish (environment : Environment) (settings : Settings) : Except Fault Settings :=
  let settings := applyOverrides environment settings
  (validate settings).map fun () => settings

section

variable {m : Type → Type} [Monad m] [FileAccess m]

/-- The settings of a file, none if the file does not exist. -/
def readFile (path : Path) : m (Except Fault (Option Settings)) := do
  if ← FileAccess.exists? path then
    match ← Files.readText path with
    | .error cause => return .error (.unreadable path cause)
    | .ok text =>
      match ofText? text with
      | none => return .error (.malformed path)
      | some settings => return .ok (some settings)
  else return .ok none

/-- The settings before the environment: those of a file that is asked for and has to exist, or of
the settings file of the directory, or the defaults. -/
def readBase (asked : Option Path) (directory : Path) : m (Except Fault Settings) := do
  match ← readFile (asked.getD (defaultFile directory)) with
  | .error fault => return .error fault
  | .ok (some settings) => return .ok settings
  | .ok none =>
    match asked with
    | some path => return .error (.missing path)
    | none => return .ok {}

/-- The settings of a run over a directory. -/
def load (asked : Option Path) (directory : Path) (environment : Environment) :
    m (Except Fault Settings) := do
  match ← readBase asked directory with
  | .error fault => return .error fault
  | .ok settings => return finish environment settings

end

end WorkflowRepair.Settings
