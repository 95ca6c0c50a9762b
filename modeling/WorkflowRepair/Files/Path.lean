import WorkflowRepair.Text.Lossy

/-!
# Paths

A path is a sequence of bytes, cut into pieces by slashes. Empty pieces name nothing, and neither
does a dot, except as the first piece of a relative path.
-/

namespace WorkflowRepair.Files

/-- A path, as the bytes it is written with. -/
structure Path where
  bytes : List UInt8
deriving DecidableEq, Repr, Inhabited

/-- The slash between pieces. -/
def slash : UInt8 := 47

/-- The piece that stands for the directory itself. -/
def dot : List UInt8 := [46]

/-- The piece that stands for the directory above. -/
def dotDot : List UInt8 := [46, 46]

/-- Cut bytes at every slash. -/
def pieces : List UInt8 → List (List UInt8)
  | [] => [[]]
  | b :: rest =>
    if b = slash then [] :: pieces rest
    else match pieces rest with
      | [] => [[b]]
      | piece :: others => (b :: piece) :: others

namespace Path

/-- The path that a text writes. -/
def ofString (s : String) : Path := ⟨Text.encode s⟩

/-- The path as messages show it. -/
def display (p : Path) : String := Text.decodeLossy p.bytes

/-- The path as a text, if it is one. -/
def text? (p : Path) : Option String := Text.decode? p.bytes

/-- Whether the path starts at the root. -/
def isAbsolute (p : Path) : Bool := p.bytes.head? == some slash

/-- Whether the path ends in a slash. -/
def endsInSlash (p : Path) : Bool := p.bytes.getLast? == some slash

/-- Whether a piece behind the first names something. -/
def names (piece : List UInt8) : Bool := piece != [] && piece != dot

/-- The pieces with those taken off the end that name nothing; the first piece stays. -/
def trimPieces : List (List UInt8) → List (List UInt8)
  | [] => []
  | first :: rest => first :: (rest.reverse.dropWhile fun piece => !names piece).reverse

/-- The bytes that pieces were cut from; a lone empty piece is the root. -/
def joinPieces : List (List UInt8) → List UInt8
  | [] => []
  | [[]] => [slash]
  | [piece] => piece
  | piece :: rest => piece ++ slash :: joinPieces rest

/-- The name at the end of the path, none if the path ends in the root, a dot or two dots. -/
def fileName? (p : Path) : Option (List UInt8) :=
  match (trimPieces (pieces p.bytes)).getLast? with
  | some piece => if names piece && piece != dotDot then some piece else none
  | none => none

/-- The name at the end of the path, or the whole path if there is none. -/
def label (p : Path) : String :=
  match p.fileName? with
  | some name => Text.decodeLossy name
  | none => p.display

/-- The path without its last piece; the root and the empty path have none. -/
def parent? (p : Path) : Option Path :=
  match trimPieces (pieces p.bytes) with
  | [] => none
  | [[]] => none
  | [_] => some ⟨[]⟩
  | kept => some ⟨joinPieces (trimPieces kept.dropLast)⟩

/-- The path `q` seen from `p`; an absolute path stays as it is. -/
def join (p q : Path) : Path :=
  if q.isAbsolute then q
  else if p.bytes.isEmpty || p.endsInSlash then ⟨p.bytes ++ q.bytes⟩
  else ⟨p.bytes ++ slash :: q.bytes⟩

/-- The directory that holds the path, a dot where the path names none. -/
def directory (p : Path) : Path :=
  match p.parent? with
  | some d => if d.bytes.isEmpty then ⟨dot⟩ else d
  | none => ⟨dot⟩

/-- The pieces that name something, behind the root or the dot that the path starts with. -/
def components (p : Path) : List (List UInt8) :=
  let all := pieces p.bytes
  let start := if p.isAbsolute then [[slash]] else if all.head? == some dot then [dot] else []
  start ++ all.filter names

/-- Whether the path lies at or below `base`, component by component. -/
def isBelow (p base : Path) : Bool := base.components.isPrefixOf p.components

end Path

end WorkflowRepair.Files
