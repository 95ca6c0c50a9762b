import WorkflowRepair.Batch.Run
import WorkflowRepair.Command.Console
import WorkflowRepair.Command.Help
import WorkflowRepair.Contract.Check
import WorkflowRepair.Log.Settings
import WorkflowRepair.Report.Sink
import WorkflowRepair.Settings.Layers

/-!
# Running commands

A run ends with a status, or is broken off before it has begun: by settings that cannot be used, a
directory that cannot be listed, or a schema that is none. What goes wrong with single documents or
payloads never breaks it off.
-/

namespace WorkflowRepair.Command

open Batch (Event Mode Summary)
open Contract (Violation)
open Files (Path FileAccess)
open Json (Value)
open Workflow (Failure)

/-- How a run that was not broken off ends. -/
inductive Status where
  | success
  /-- Some document or payload failed, or would be changed where only a look was asked for. -/
  | failed
deriving DecidableEq, Repr

/-- The exit code of a status. -/
def Status.code : Status → Nat
  | .success => 0
  | .failed => 1

/-- The exit code of a run that was broken off, and of refused arguments. -/
def fatalCode : Nat := 2

/-- The status of a run in which something failed or nothing did. -/
def Status.ofFailed (failed : Bool) : Status := if failed then .failed else .success

/-- Why a run was broken off. -/
inductive Fatal where
  /-- The settings for a directory cannot be used. -/
  | settings (directory : Path) (fault : Settings.Fault)
  | failure (failure : Failure)
deriving DecidableEq, Repr

/-- The wording of a break-off. -/
def Fatal.message : Fatal → String
  | .settings directory fault =>
    "failed to configure patch run for " ++ directory.display ++ ": " ++
      (Failure.settings fault).message
  | .failure cause => cause.message

section

variable {m : Type → Type} [Monad m] [FileAccess m] [Console m]

/-! ## Runs over directories -/

/-- The report of a form. -/
def ReportForm.format (mode : Mode) : ReportForm → Report.Format
  | .text => .text (mode == .dryRun)
  | .json => .json

/-- The settings of a run: a pattern among the arguments stands above all layers, and is not checked
before it is used. -/
def loadSettings (corpus : Corpus) (environment : Settings.Environment) :
    m (Except Settings.Fault Settings) := do
  match ← Settings.load corpus.config corpus.directory environment with
  | .error fault => return .error fault
  | .ok settings =>
    return .ok { settings with batch := ⟨corpus.pattern.getD settings.batch.pattern⟩ }

/-- Run over a directory. -/
def runCorpus (environment : Settings.Environment) (corpus : Corpus) (mode : Mode) :
    m (Except Fatal Summary) := do
  match ← loadSettings corpus environment with
  | .error fault => return .error (.settings corpus.directory fault)
  | .ok settings =>
    let format := corpus.form.format mode
    let tell (event : Event) : m Unit := Console.print (format.describe event)
    let pattern := settings.batch.pattern
    match ← Batch.runDirectory (.all settings) mode tell corpus.directory pattern with
    | .error failure => return .error (.failure failure)
    | .ok summary => return .ok summary

/-! ## Contracts -/

/-- Read a JSON file. -/
def loadValue (path : Path) : m (Except Failure Value) := do
  match ← Files.readText path with
  | .error fault => return .error (.load path (.file fault))
  | .ok text =>
    match Json.readText text with
    | .ok v => return .ok v
    | .error fault => return .error (.load path (.syntactic fault))

/-- The line for a violation. -/
def violationLine (violation : Violation) : String :=
  "   - " ++ (if violation.pointer.isEmpty then "/" else violation.pointer) ++ " " ++
    violation.message ++ "\n"

/-- The lines for a payload. -/
def payloadText (payload : Path) (violations : List Violation) : String :=
  if violations.isEmpty then "OK: " ++ payload.display ++ "\n"
  else "FAIL: " ++ payload.display ++ " (" ++ toString violations.length ++ " violations)\n" ++
    String.join (violations.map violationLine)

/-- Validate payloads one after the other. `judge` gives the violations of a value, or says that the
schema is none. The status is a failure if one of them failed. -/
def validatePayloads (judge : Value → Except Fatal (List Violation)) :
    (failed : Bool) → List Path → m (Except Fatal Status)
  | failed, [] => return .ok (.ofFailed failed)
  | failed, payload :: rest => do
    match ← loadValue payload with
    | .error failure =>
      Console.print ("FAIL: " ++ failure.message ++ "\n")
      validatePayloads judge true rest
    | .ok v =>
      match judge v with
      | .error fatal => return .error fatal
      | .ok violations =>
        Console.print (payloadText payload violations)
        validatePayloads judge (failed || !violations.isEmpty) rest

/-- The violations of a value by a schema. -/
def judgeBy (contract : Option Contract) (v : Value) : Except Fatal (List Violation) :=
  match contract with
  | none => .error (.failure (.settings .badContract))
  | some contract => .ok (contract.violations v)

/-- Validate payloads against a schema, which is judged when the first payload is. -/
def validateContract (schema : Path) (payloads : List Path) : m (Except Fatal Status) := do
  match ← loadValue schema with
  | .error failure => return .error (.failure failure)
  | .ok v => validatePayloads (judgeBy (Contract.read v)) false payloads

/-! ## All commands -/

/-- Run an action. -/
def run (environment : Settings.Environment) : Action → m (Except Fatal Status)
  | .patch corpus dryRun => do
    let mode : Mode := if dryRun then .dryRun else .write
    return (← runCorpus environment corpus mode).map fun summary => .ofFailed summary.hasErrors
  | .check corpus => do
    return (← runCorpus environment corpus .dryRun).map fun summary =>
      .ofFailed (summary.hasErrors || summary.hasChanges)
  | .validateContract schema payloads => validateContract schema payloads

/-- The settings file that an action reads. -/
def Action.settingsFile : Action → Option Path
  | .patch corpus _ => some (corpus.config.getD (Settings.defaultFile corpus.directory))
  | .check corpus => some (corpus.config.getD (Settings.defaultFile corpus.directory))
  | .validateContract .. => none

/-- Complain and give up. -/
def giveUp (message : String) : m Nat := do
  Console.complain ("flowpatch: " ++ message ++ "\n")
  return fatalCode

/-- Begin to log, and run a request. The result is the exit code. -/
def serve (environment : Settings.Environment) (request : Request) : m Nat := do
  match ← Log.begin request.action.settingsFile request.verbose with
  | .error fault => giveUp ("failed to initialize logging: " ++ fault.message)
  | .ok _ =>
    match ← run environment request.action with
    | .error fatal => giveUp fatal.message
    | .ok status => return status.code

/-- Do what arguments ask for. -/
def answer (environment : Settings.Environment) (arguments : List (List UInt8)) : m Nat := do
  match read arguments with
  | .request request => serve environment request
  | .help topic long => do
    Console.print (topic.text long)
    return 0
  | .version => do
    Console.print versionText
    return 0
  | .refuse refusal => do
    Console.complain ("error: " ++ refusal.message ++ "\n")
    return fatalCode

end

end WorkflowRepair.Command
