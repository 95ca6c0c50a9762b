import WorkflowRepair.Files.Fault
import WorkflowRepair.Files.Path

/-!
# Access to files

What the program asks of a file system, as operations of a monad: the real one when it runs, a
value to compute with otherwise. A document is saved in steps, so that at every moment its path
holds either the bytes from before or all of the new ones.
-/

namespace WorkflowRepair.Files

/-- An entry of a directory: its name, and whether it is a regular file. -/
structure DirectoryEntry where
  name : List UInt8
  isFile : Bool
deriving DecidableEq, Repr

/-- A file system. `Temporary` is a file under a name of its own that nobody else uses. -/
class FileAccess (m : Type → Type) where
  Temporary : Type
  /-- Whether something is stored under the path. -/
  exists? : Path → m Bool
  /-- Whether a directory is stored under the path. -/
  isDirectory : Path → m Bool
  /-- The bytes of a file. -/
  read : Path → m (Except Fault ByteArray)
  /-- The entries of a directory, in whatever order. -/
  list : Path → m (Except Fault (List DirectoryEntry))
  /-- Make one directory. -/
  makeDirectory : Path → m (Except Fault Unit)
  /-- Make sure that a file exists to which text can be appended. -/
  openLog : Path → m (Except Fault Unit)
  /-- Begin an empty temporary file in a directory. -/
  createTemporary : Path → m (Except Fault Temporary)
  /-- Append bytes to a temporary file. -/
  append : Temporary → ByteArray → m (Except Fault Unit)
  /-- Make sure that the bytes of a temporary file will last. -/
  synchronize : Temporary → m (Except Fault Unit)
  /-- Put a temporary file in the place of whatever file the path holds. -/
  moveTo : Temporary → Path → m (Except Fault Unit)
  /-- Take a temporary file away. -/
  discard : Temporary → m Unit

section

variable {m : Type → Type} [Monad m] [FileAccess m]

/-- The text of a file, which must be UTF-8. -/
def readText (path : Path) : m (Except Fault String) := do
  match ← FileAccess.read path with
  | .error fault => return .error fault
  | .ok bytes =>
    match String.fromUTF8? bytes with
    | some text => return .ok text
    | none => return .error .notText

/-- Fill a temporary file and put it in place. -/
def fillAndMove (temporary : FileAccess.Temporary m) (path : Path) (bytes : ByteArray) :
    m (Except Fault Unit) := do
  match ← FileAccess.append temporary bytes with
  | .error fault => return .error fault
  | .ok () =>
    match ← FileAccess.synchronize temporary with
    | .error fault => return .error fault
    | .ok () => FileAccess.moveTo temporary path

/-- Replace the bytes of a file: they go to a temporary file in the same directory, which then
takes the place of the old file. If a step fails the temporary file is taken away again. -/
def save (path : Path) (bytes : ByteArray) : m (Except Fault Unit) := do
  match ← FileAccess.createTemporary path.directory with
  | .error fault => return .error fault
  | .ok temporary =>
    match ← fillAndMove temporary path bytes with
    | .ok () => return .ok ()
    | .error fault =>
      FileAccess.discard temporary
      return .error fault

/-- Make a directory and those above it, as far as they are missing; `fuel` bounds their number. -/
def makeDirectoriesWithin : (fuel : Nat) → Path → m (Except Fault Unit)
  | 0, _ => return .error .notFound
  | fuel + 1, path => do
    if path.bytes.isEmpty then return .ok ()
    match ← FileAccess.makeDirectory path with
    | .ok () => return .ok ()
    | .error .notFound =>
      match path.parent? with
      | none => return .error (.other "failed to create whole tree")
      | some parent =>
        match ← makeDirectoriesWithin fuel parent with
        | .error fault => return .error fault
        | .ok () =>
          match ← FileAccess.makeDirectory path with
          | .ok () => return .ok ()
          | .error fault =>
            if ← FileAccess.isDirectory path then return .ok () else return .error fault
    | .error fault =>
      if ← FileAccess.isDirectory path then return .ok () else return .error fault

/-- Make a directory and those above it, as far as they are missing. -/
def makeDirectories (path : Path) : m (Except Fault Unit) :=
  makeDirectoriesWithin (path.bytes.length + 1) path

end

end WorkflowRepair.Files
