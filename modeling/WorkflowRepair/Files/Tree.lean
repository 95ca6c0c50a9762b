import WorkflowRepair.Files.Access

/-!
# Trees of files

A file system as a value: directories and files below a root, without links, and the directory that
the program works in. Paths are resolved as the operating system does it, step by step, an absolute
one from the root and a relative one from the working directory.
-/

namespace WorkflowRepair.Files

/-- What a tree stores under a name. -/
inductive Entry where
  | file (bytes : ByteArray)
  | directory

instance : DecidableEq Entry
  | .file a, .file b =>
    match ByteArray.instDecidableEq a b with
    | .isTrue h => .isTrue (congrArg Entry.file h)
    | .isFalse h => .isFalse fun heq => h (Entry.file.inj heq)
  | .directory, .directory => .isTrue rfl
  | .file _, .directory => .isFalse nofun
  | .directory, .file _ => .isFalse nofun

/-- The names on the way from the root to an entry. -/
abbrev Location := List (List UInt8)

/-- The entries below the root, and where relative paths start. -/
structure Tree where
  entries : List (Location × Entry) := []
  workingDirectory : Location := []

/-- Where a path leads: to an entry, to a free name in a directory, or to a directory that the path
does not name. -/
inductive Target where
  | entry (location : Location) (entry : Entry)
  | free (location : Location)
  /-- The root, the working directory or one that the path reaches by dots. -/
  | place (location : Location)

namespace Tree

/-- What is stored at a location. -/
def get? (tree : Tree) (location : Location) : Option Entry :=
  (tree.entries.find? (·.1 == location)).map (·.2)

/-- The tree with an entry put at a location. -/
def put (tree : Tree) (location : Location) (entry : Entry) : Tree :=
  { tree with entries := (location, entry) :: tree.entries.filter (·.1 != location) }

/-- The tree without a location and everything below it. -/
def erase (tree : Tree) (location : Location) : Tree :=
  { tree with entries := tree.entries.filter fun e => !location.isPrefixOf e.1 }

/-- Go one piece further from a directory. Two dots lead to the directory above, and stay at the
root. -/
def step (tree : Tree) (here : Location) (piece : List UInt8) : Target :=
  if !Path.names piece then .place here
  else if piece = dotDot then .place here.dropLast
  else match tree.get? (here ++ [piece]) with
    | some entry => .entry (here ++ [piece]) entry
    | none => .free (here ++ [piece])

/-- Follow pieces from a directory. Every piece but the last must lead to a directory. -/
def walk (tree : Tree) (here : Location) : List (List UInt8) → Except Fault Target
  | [] => .ok (.place here)
  | [piece] => .ok (tree.step here piece)
  | piece :: rest =>
    match tree.step here piece with
    | .place here => tree.walk here rest
    | .entry location .directory => tree.walk location rest
    | .entry _ (.file _) => .error .notDirectory
    | .free _ => .error .notFound

/-- The pieces without the empty ones at their end. -/
def withoutSlashes (pieces : List (List UInt8)) : List (List UInt8) :=
  (pieces.reverse.dropWhile (·.isEmpty)).reverse

/-- Where a path starts. -/
def start (tree : Tree) (path : Path) : Location :=
  if path.isAbsolute then [] else tree.workingDirectory

/-- Where a path leads. A slash at its end asks for a directory. -/
def resolve (tree : Tree) (path : Path) : Except Fault Target :=
  if path.bytes.isEmpty then .error .notFound
  else match tree.walk (tree.start path) (withoutSlashes (pieces path.bytes)) with
    | .ok (.entry location (.file bytes)) =>
      if path.endsInSlash then .error .notDirectory else .ok (.entry location (.file bytes))
    | other => other

/-- The bytes of a file. -/
def read (tree : Tree) (path : Path) : Except Fault ByteArray :=
  match tree.resolve path with
  | .error fault => .error fault
  | .ok (.entry _ (.file bytes)) => .ok bytes
  | .ok (.free _) => .error .notFound
  | .ok _ => .error .isDirectory

/-- Whether the path leads to a directory. -/
def isDirectory (tree : Tree) (path : Path) : Bool :=
  match tree.resolve path with
  | .ok (.entry _ .directory) => true
  | .ok (.place _) => true
  | _ => false

/-- Whether the path leads to something. -/
def contains (tree : Tree) (path : Path) : Bool :=
  match tree.resolve path with
  | .ok (.free _) => false
  | .ok _ => true
  | .error _ => false

/-- The entries of a directory at a location. -/
def entriesAt (tree : Tree) (location : Location) : List DirectoryEntry :=
  tree.entries.filterMap fun (at_, entry) =>
    match at_.getLast? with
    | some name =>
      if at_.dropLast == location then
        some ⟨name, match entry with | .file _ => true | .directory => false⟩
      else none
    | none => none

/-- The entries of a directory. -/
def list (tree : Tree) (path : Path) : Except Fault (List DirectoryEntry) :=
  match tree.resolve path with
  | .error fault => .error fault
  | .ok (.entry location .directory) => .ok (tree.entriesAt location)
  | .ok (.place location) => .ok (tree.entriesAt location)
  | .ok (.entry _ (.file _)) => .error .notDirectory
  | .ok (.free _) => .error .notFound

/-- Make one directory. -/
def makeDirectory (tree : Tree) (path : Path) : Except Fault Tree :=
  match tree.resolve path with
  | .error fault => .error fault
  | .ok (.free location) => .ok (tree.put location .directory)
  | .ok _ => .error .alreadyExists

/-- Store bytes in a file, an old one or a new one. -/
def write (tree : Tree) (path : Path) (bytes : ByteArray) : Except Fault Tree :=
  match tree.resolve path with
  | .error fault => .error fault
  | .ok (.entry location (.file _)) => .ok (tree.put location (.file bytes))
  | .ok (.free location) =>
    if path.endsInSlash then .error .isDirectory else .ok (tree.put location (.file bytes))
  | .ok _ => .error .isDirectory

/-- Take away what is stored under a path, with everything below it. -/
def remove (tree : Tree) (path : Path) : Except Fault Tree :=
  match tree.resolve path with
  | .error fault => .error fault
  | .ok (.entry location _) => .ok (tree.erase location)
  | .ok (.free _) => .error .notFound
  | .ok _ => .error .busy

/-- Put bytes in the place of whatever file the path holds. -/
def replace (tree : Tree) (path : Path) (bytes : ByteArray) : Except Fault Tree :=
  match tree.resolve path with
  | .error fault => .error fault
  | .ok (.entry _ .directory) => .error (if path.endsInSlash then .notDirectory else .isDirectory)
  | .ok (.entry location (.file _)) => .ok (tree.put location (.file bytes))
  | .ok (.free location) =>
    if path.endsInSlash then .error .notDirectory else .ok (tree.put location (.file bytes))
  | .ok _ => .error .busy

/-- The paths of all entries below the working directory, as texts seen from there and sorted; a
directory ends in a slash. -/
def listing (tree : Tree) : List String :=
  let below := tree.entries.filter fun e =>
    tree.workingDirectory.isPrefixOf e.1 && e.1 != tree.workingDirectory
  let written := below.map fun (location, entry) =>
    let names := location.drop tree.workingDirectory.length
    let path := (names.intersperse [slash]).flatten
    match entry with
    | .file _ => Text.decodeLossy path
    | .directory => Text.decodeLossy (path ++ [slash])
  written.mergeSort fun a b => !decide (b < a)

/-! ## Saving -/

/-- A name that no entry has: it is longer than all of theirs. -/
def freshName (tree : Tree) : List UInt8 :=
  let longest := (tree.entries.flatMap fun e => e.1.map List.length).foldl max 0
  46 :: List.replicate longest 126

/-- Begin a temporary file in a directory: the tree with it, and where it stands. -/
def createTemporary (tree : Tree) (directory : Path) : Except Fault (Location × Tree) :=
  let begin (location : Location) : Except Fault (Location × Tree) :=
    let spare := location ++ [tree.freshName]
    .ok (spare, tree.put spare (.file .empty))
  match tree.resolve directory with
  | .error fault => .error fault
  | .ok (.entry location .directory) => begin location
  | .ok (.place location) => begin location
  | .ok (.entry _ (.file _)) => .error .notDirectory
  | .ok (.free _) => .error .notFound

/-- Append bytes to the file at a location. -/
def appendAt (tree : Tree) (location : Location) (bytes : ByteArray) : Except Fault Tree :=
  match tree.get? location with
  | some (.file old) => .ok (tree.put location (.file (old ++ bytes)))
  | _ => .error .notFound

/-- Put the file at a location in the place of whatever file the path holds. -/
def moveTo (tree : Tree) (location : Location) (path : Path) : Except Fault Tree :=
  match tree.get? location with
  | some (.file bytes) => (tree.replace path bytes).map (·.erase location)
  | _ => .error .notFound

/-- Open a file to append to it. -/
def openLog (tree : Tree) (path : Path) : Except Fault Tree :=
  match tree.read path with
  | .ok _ => .ok tree
  | .error .notFound => tree.write path .empty
  | .error fault => .error fault

/-- Run an operation that may change the tree. -/
def run {m : Type → Type} [Monad m] (operation : Tree → Except Fault Tree) :
    StateT Tree m (Except Fault Unit) := fun tree =>
  match operation tree with
  | .ok tree => pure (.ok (), tree)
  | .error fault => pure (.error fault, tree)

instance {m : Type → Type} [Monad m] : FileAccess (StateT Tree m) where
  Temporary := Location
  exists? path := return (← get).contains path
  isDirectory path := return (← get).isDirectory path
  read path := return (← get).read path
  list path := return (← get).list path
  makeDirectory path := run (·.makeDirectory path)
  openLog path := run (·.openLog path)
  createTemporary directory := fun tree =>
    match tree.createTemporary directory with
    | .ok (location, tree) => pure (.ok location, tree)
    | .error fault => pure (.error fault, tree)
  append location bytes := run (·.appendAt location bytes)
  synchronize _ := return .ok ()
  moveTo location path := run (·.moveTo location path)
  discard location := modify (·.erase location)

end Tree

end WorkflowRepair.Files
