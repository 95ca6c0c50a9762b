import WorkflowRepair.Command.Run

/-!
# The program

The command line on the file system and the console of the machine. A path that is not text names
nothing here.
-/

namespace WorkflowRepair

open Files (Path FileAccess Fault DirectoryEntry)

/-- The fault that an error of the machine stands for. -/
def faultOf : IO.Error → Fault
  | .noFileOrDirectory .. => .notFound
  | .inappropriateType .. => .notDirectory
  | .alreadyExists .. => .alreadyExists
  | .resourceBusy .. => .busy
  | error => .other (toString error)

/-- An action with its error as a fault. -/
def guarded {α : Type} (action : IO α) : IO (Except Fault α) := do
  try return .ok (← action)
  catch error => return .error (faultOf error)

/-- An action on the text of a path. -/
def onPath {α : Type} (path : Path) (action : String → IO α) : IO (Except Fault α) :=
  match path.text? with
  | some text => guarded (action text)
  | none => return .error .notFound

/-- Whether a path leads to a directory. -/
def leadsToDirectory (text : String) : IO Bool := do (← IO.FS.realPath text).isDir

/-- Whether an entry of a directory is a regular file. -/
def isRegular (entry : IO.FS.DirEntry) : IO Bool := do
  return (← entry.path.symlinkMetadata).type == .file

/-- The files of the machine. A temporary file is known by its path. -/
instance : FileAccess IO where
  Temporary := String
  exists? path := return (← onPath path fun text => do discard (IO.FS.realPath text)).toBool
  isDirectory path := return (← onPath path leadsToDirectory).toOption.getD false
  read path := do
    match ← onPath path leadsToDirectory with
    | .ok true => return .error .isDirectory
    | _ => onPath path fun text => IO.FS.readBinFile text
  list path := onPath path fun text => do
    (← (← IO.FS.realPath text).readDir).toList.mapM fun entry =>
      return ⟨Text.encode entry.fileName, ← isRegular entry⟩
  makeDirectory path := onPath path fun text => IO.FS.createDir text
  openLog path := onPath path fun text => do discard (IO.FS.Handle.mk text .append)
  createTemporary directory := onPath directory fun text => do
    let file := text ++ "/.tmp" ++ toString (← IO.monoNanosNow)
    discard (IO.FS.Handle.mk file .writeNew)
    return file
  append file bytes := guarded do (← IO.FS.Handle.mk file .append).write bytes
  synchronize file := guarded do (← IO.FS.Handle.mk file .append).flush
  moveTo file path := onPath path fun text => IO.FS.rename file text
  discard file := do discard (guarded (IO.FS.removeFile file))

/-- The console of the machine. -/
instance : Command.Console IO where
  print text := do
    let out ← IO.getStdout
    out.putStr text
    out.flush
  complain text := do (← IO.getStderr).putStr text

/-- What the environment of the machine gives. -/
def readEnvironment : IO Settings.Environment := do
  let id ← IO.getEnv Settings.Override.credentialId.variableName
  let name ← IO.getEnv Settings.Override.credentialName.variableName
  let pattern ← IO.getEnv Settings.Override.pattern.variableName
  return fun
    | .credentialId => id
    | .credentialName => name
    | .pattern => pattern

end WorkflowRepair

/-- Run the program. -/
def main (arguments : List String) : IO UInt32 := do
  let environment ← WorkflowRepair.readEnvironment
  let code ← WorkflowRepair.Command.answer environment (arguments.map WorkflowRepair.Text.encode)
  return code.toUInt32
