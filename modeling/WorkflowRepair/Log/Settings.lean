import WorkflowRepair.Files.Access
import WorkflowRepair.Log.Directive
import WorkflowRepair.Toml.Reader
import WorkflowRepair.Toml.Section

/-!
# Logging

How a run is logged: to a file in a directory, if one is given, from which level on, and to which
console. The settings stand in a section of the settings file of the run.
-/

namespace WorkflowRepair.Log

open Files (Path FileAccess)
open Toml (Section Table)

/-- Where log lines are shown. -/
inductive Console where
  | output
  | error
  | none
deriving DecidableEq, Repr

/-- The name of a console in settings. -/
def Console.name : Console → String
  | .output => "stdout"
  | .error => "stderr"
  | .none => "none"

/-- The console of a name. -/
def Console.ofName? (name : String) : Option Console :=
  [Console.output, .error, .none].find? (·.name == name)

/-- How a run is logged. -/
structure Settings where
  /-- The directory of the log file. -/
  directory : Option Path := none
  /-- The directive for what is logged. -/
  level : String := "warn"
  console : Console := .error
deriving DecidableEq, Repr

/-- Why a run cannot be logged. -/
inductive Fault where
  | unreadable (path : Path) (cause : Files.Fault)
  | malformed (path : Path)
  | badLevel
  /-- A piece of the level between commas is no directive. -/
  | badDirectives
  | noDirectory (path : Path) (cause : Files.Fault)
  | noFile (path : Path) (cause : Files.Fault)
deriving DecidableEq, Repr

/-- The wording of a fault. -/
def Fault.message : Fault → String
  | .unreadable path cause =>
    "failed to read logging config " ++ path.display ++ ": " ++ cause.message
  | .malformed path => "failed to parse logging config " ++ path.display
  | .badLevel => "logging.default_level must be a valid tracing directive"
  | .badDirectives => "failed to configure tracing level: invalid filter directive"
  | .noDirectory path cause =>
    "failed to create log directory " ++ path.display ++ ": " ++ cause.message
  | .noFile path cause => "failed to open log file " ++ path.display ++ ": " ++ cause.message

/-! ## The section -/

/-- What the section may state. -/
structure Stated where
  directory : Option String := none
  level : Option String := none
  console : Option Console := none

/-- A text that may be missing. -/
def textOf? : Option Toml.Value → Option (Option String)
  | none => some none
  | some (.string text) => some (some text)
  | some _ => none

/-- A console by its name, or by a table of one member with nothing in it. -/
def consoleOf? : Option Toml.Value → Option (Option Console)
  | none => some none
  | some (.string name) => (Console.ofName? name).map some
  | some (.table [(name, .table [])]) => (Console.ofName? name).map some
  | some (.table [(name, .array [])]) => (Console.ofName? name).map some
  | some _ => none

/-- What a section states. An array has to give the directory and the level. -/
def statedOf? : Section → Option Stated
  | .named members => do
    return {
      directory := ← textOf? (members.get? "log_dir")
      level := ← textOf? (members.get? "default_level")
      console := ← consoleOf? (members.get? "console_output") }
  | .listed (directory :: level :: rest) => do
    return {
      directory := ← textOf? (some directory)
      level := ← textOf? (some level)
      console := ← consoleOf? rest.head? }
  | .listed _ => none

/-- What the section of a text states, none if the text is malformed. -/
def readStated (text : String) : Option Stated := do
  statedOf? (← Section.ofTable? "logging" (← Toml.read text))

/-- The settings with what a section states. A relative directory is seen from `base`. -/
def Settings.apply (base : Path) (stated : Stated) (settings : Settings) : Settings :=
  { directory :=
      match stated.directory with
      | some directory => some (base.join (.ofString directory))
      | none => settings.directory
    level := stated.level.getD settings.level
    console := stated.console.getD settings.console }

/-- The settings with the level of a verbose run. -/
def Settings.withVerbose (verbose : Bool) (settings : Settings) : Settings :=
  if verbose then { settings with level := "info" } else settings

/-- Check settings. -/
def Settings.check (settings : Settings) : Except Fault Settings :=
  if isDirective settings.level then .ok settings else .error .badLevel

/-- The name of the log file. -/
def fileName : String := "flowpatch.log"

/-- The log file of a directory. -/
def fileIn (directory : Path) : Path := directory.join (.ofString fileName)

section

variable {m : Type → Type} [Monad m] [FileAccess m]

/-- What the section of a file states. A file that does not exist states nothing. -/
def readFile (path : Path) : m (Except Fault Stated) := do
  if ← FileAccess.exists? path then
    match ← Files.readText path with
    | .error cause => return .error (.unreadable path cause)
    | .ok text =>
      match readStated text with
      | none => return .error (.malformed path)
      | some stated => return .ok stated
  else return .ok {}

/-- How a run is logged: the defaults, what a file states, and the level of a verbose run, each
above the one before. -/
def load (file : Option Path) (verbose : Bool) : m (Except Fault Settings) := do
  match file with
  | none => return (Settings.withVerbose verbose {}).check
  | some path =>
    match ← readFile path with
    | .error fault => return .error fault
    | .ok stated =>
      let base := (path.parent?).getD ⟨Files.dot⟩
      return (Settings.withVerbose verbose (Settings.apply base stated {})).check

/-- Make sure that the log file exists, if there is to be one, and the directories above it. -/
def openFile (settings : Settings) : m (Except Fault (Option Path)) := do
  match settings.directory with
  | none => return .ok none
  | some directory =>
    let file := fileIn directory
    let parent := (file.parent?).getD ⟨Files.dot⟩
    match ← Files.makeDirectories parent with
    | .error cause => return .error (.noDirectory parent cause)
    | .ok () =>
      match ← FileAccess.openLog file with
      | .error cause => return .error (.noFile file cause)
      | .ok () => return .ok (some file)

/-- Begin to log a run. -/
def begin (file : Option Path) (verbose : Bool) : m (Except Fault (Option Path)) := do
  match ← load file verbose with
  | .error fault => return .error fault
  | .ok settings =>
    if areDirectives settings.level then openFile settings else return .error .badDirectives

end

end WorkflowRepair.Log
