import WorkflowRepair.Text.Lossy

/-!
# File name patterns

A pattern is read into pieces and matched against the bytes of a file name. A star stands for any
bytes, a question mark for one byte, brackets for one byte of a class, and braces for one of several
patterns; none of them stops at a slash. Two stars together stand for whole directories.
-/

namespace WorkflowRepair.Glob

/-! ## Pieces and what they match -/

/-- A piece of a pattern. -/
inductive Piece where
  /-- One given byte. -/
  | byte (b : UInt8)
  /-- Any one byte. -/
  | anyByte
  /-- Any bytes. -/
  | anyBytes
  /-- Nothing, a slash, or anything that ends in a slash. -/
  | leadingDirectories
  /-- A slash and anything behind it. -/
  | trailingDirectories
  /-- A slash, or anything between two slashes. -/
  | innerDirectories
  /-- One byte in the ranges, or in none of them. -/
  | byteClass (negated : Bool) (ranges : List (UInt8 × UInt8))
  /-- One of several patterns. -/
  | alternatives (branches : List (List Piece))
deriving Repr

/-- A pattern. -/
abbrev Pattern := List Piece

mutual

/-- Whether a piece stands for nothing at all. -/
def Piece.isVoid : Piece → Bool
  | .alternatives branches => branchesVoid branches
  | _ => false

/-- Whether all pieces stand for nothing. -/
def patternVoid : List Piece → Bool
  | [] => true
  | piece :: rest => piece.isVoid && patternVoid rest

/-- Whether all branches stand for nothing. -/
def branchesVoid : List (List Piece) → Bool
  | [] => true
  | branch :: rest => patternVoid branch && branchesVoid rest

end

/-- Whether some end of the bytes passes `rest`. -/
def anyEnd (rest : List UInt8 → Bool) : List UInt8 → Bool
  | [] => rest []
  | b :: bs => rest (b :: bs) || anyEnd rest bs

/-- Whether some end of the bytes that comes right behind a slash passes `rest`. -/
def anyEndBehindSlash (rest : List UInt8 → Bool) : List UInt8 → Bool
  | [] => false
  | b :: bs => (b == 47 && rest bs) || anyEndBehindSlash rest bs

/-- Whether a byte is in some range. -/
def inRanges (ranges : List (UInt8 × UInt8)) (b : UInt8) : Bool :=
  ranges.any fun (first, last) => decide (first ≤ b) && decide (b ≤ last)

mutual

/-- Whether the bytes begin with what the piece stands for, and what follows passes `rest`. -/
def Piece.accepts (rest : List UInt8 → Bool) : Piece → List UInt8 → Bool
  | .byte _, [] => false
  | .byte b, c :: cs => b == c && rest cs
  | .anyByte, [] => false
  | .anyByte, _ :: cs => rest cs
  | .anyBytes, cs => anyEnd rest cs
  | .leadingDirectories, cs =>
    rest cs || (cs.head? == some 47 && rest cs.tail) || anyEndBehindSlash rest cs
  | .trailingDirectories, cs => cs.head? == some 47 && anyEnd rest cs.tail
  | .innerDirectories, cs =>
    cs.head? == some 47 && (rest cs.tail || anyEndBehindSlash rest cs.tail)
  | .byteClass _ _, [] => false
  | .byteClass negated ranges, c :: cs => (inRanges ranges c != negated) && rest cs
  | .alternatives branches, cs =>
    if branchesVoid branches then rest cs else branchesAccept rest branches cs

/-- Whether the bytes begin with what the pieces stand for, and what follows passes `rest`. -/
def patternAccepts (rest : List UInt8 → Bool) : List Piece → List UInt8 → Bool
  | [], cs => rest cs
  | piece :: pieces, cs => piece.accepts (patternAccepts rest pieces) cs

/-- Whether the bytes begin with what one of the branches stands for, and what follows passes
`rest`. A branch that stands for nothing does not count. -/
def branchesAccept (rest : List UInt8 → Bool) : List (List Piece) → List UInt8 → Bool
  | [], _ => false
  | branch :: branches, cs =>
    (!patternVoid branch && patternAccepts rest branch cs) || branchesAccept rest branches cs

end

/-- Whether the pattern stands for exactly these bytes. Two stars alone stand for anything. -/
def accepts : Pattern → List UInt8 → Bool
  | [.leadingDirectories], _ => true
  | pattern, name => patternAccepts List.isEmpty pattern name

/-! ## Reading patterns -/

/-- Why a text is no pattern. -/
inductive Reason where
  | unclosedClass
  | invalidRange (first last : Char)
  | unopenedAlternatives
  | unclosedAlternatives
  | danglingEscape
deriving DecidableEq, Repr

/-- The wording of a reason. -/
def Reason.message : Reason → String
  | .unclosedClass => "unclosed character class; missing ']'"
  | .invalidRange first last =>
    "invalid range; '" ++ toString first ++ "' > '" ++ toString last ++ "'"
  | .unopenedAlternatives =>
    "unopened alternate group; missing '\x7b' (maybe escape '\x7d' with '[\x7d]'?)"
  | .unclosedAlternatives =>
    "unclosed alternate group; missing '\x7d' (maybe escape '\x7b' with '[\x7b]'?)"
  | .danglingEscape => "dangling '\\'"

/-- A refused pattern. -/
structure Fault where
  pattern : String
  reason : Reason
deriving DecidableEq, Repr

/-- The wording of a refusal. -/
def Fault.message (fault : Fault) : String :=
  "error parsing glob '" ++ fault.pattern ++ "': " ++ fault.reason.message

/-- The bytes of a character, each as a piece. -/
def literal (c : Char) : List Piece := (Text.encode c.toString).map .byte

/-- The byte ranges of a range of characters: the last byte of the first character and the first
byte of the last one are the ends of a range, and all their other bytes stand for themselves. -/
def byteRanges (range : Char × Char) : List (UInt8 × UInt8) :=
  let first := Text.encode range.1.toString
  let last := Text.encode range.2.toString
  let alone := List.map fun b : UInt8 => (b, b)
  if range.1 = range.2 then alone first
  else match first.getLast?, last with
    | some low, high :: others => alone first.dropLast ++ (low, high) :: alone others
    | _, _ => []

/-- Read the inside of brackets: the character ranges, last first, and the text behind the closing
bracket. A bracket or a dash that comes first stands for itself, and so does a dash that comes
last; `open?` says that the last range still awaits its end. -/
def readClass : (ranges : List (Char × Char)) → (first awaits : Bool) → List Char →
    Except Reason (List (Char × Char) × List Char)
  | _, _, _, [] => .error .unclosedClass
  | ranges, first, awaits, c :: rest =>
    if c = ']' ∧ !first then
      .ok (if awaits then ('-', '-') :: ranges else ranges, rest)
    else if awaits then
      match ranges with
      | [] => readClass [(c, c)] false false rest
      | (low, _) :: ranges =>
        if c < low then .error (.invalidRange low c)
        else readClass ((low, c) :: ranges) false false rest
    else if c = '-' ∧ !first then readClass ranges false true rest
    else readClass ((c, c) :: ranges) false false rest

/-- A pattern half read: the pieces so far, last first; the finished branches of the group they
stand in, last first; and the same for every group around it. -/
structure Draft where
  pieces : List Piece := []
  branches : List (List Piece) := []
  outer : List (List Piece × List (List Piece)) := []

namespace Draft

/-- Whether the draft stands inside braces. -/
def grouped (draft : Draft) : Bool := !draft.outer.isEmpty

/-- The draft with one more piece. -/
def push (piece : Piece) (draft : Draft) : Draft :=
  { draft with pieces := piece :: draft.pieces }

/-- The draft with the pieces of one more character. -/
def pushLiteral (c : Char) (draft : Draft) : Draft :=
  { draft with pieces := (literal c).reverse ++ draft.pieces }

/-- Enter a group. -/
def enter (draft : Draft) : Draft :=
  { outer := (draft.pieces, draft.branches) :: draft.outer }

/-- Begin the next branch of the group. -/
def next (draft : Draft) : Draft :=
  { draft with pieces := [], branches := draft.pieces.reverse :: draft.branches }

/-- Leave the group, none if there is none. -/
def leave? (draft : Draft) : Option Draft :=
  match draft.outer with
  | [] => none
  | (pieces, branches) :: outer =>
    let group := .alternatives (draft.pieces.reverse :: draft.branches).reverse
    some { pieces := group :: pieces, branches, outer }

/-- Two stars behind some pieces, the last of which gives way to them, unless it stands for
directories itself. -/
def pushDirectories (directories : Piece) (draft : Draft) : Draft :=
  match draft.pieces with
  | .leadingDirectories :: _ => draft
  | .trailingDirectories :: _ => draft
  | _ :: pieces => { draft with pieces := directories :: pieces }
  | [] => draft.push directories

end Draft

/-- Read two stars, the text behind them, with the character before them: the draft and what is
left. Between slashes, or at either end, they stand for directories, and elsewhere for one star. -/
def readStars (before : Option Char) (draft : Draft) (rest : List Char) : Draft × List Char :=
  let plain := ((draft.push .anyBytes).push .anyBytes, rest)
  if draft.pieces.isEmpty then
    match rest with
    | [] => (draft.push .leadingDirectories, [])
    | '/' :: behind => (draft.push .leadingDirectories, behind)
    | _ => plain
  else if before != some '/' &&
      (!draft.grouped || (before != some ',' && before != some '\x7b')) then plain
  else match rest with
    | [] => (draft.pushDirectories .trailingDirectories, [])
    | '/' :: behind => (draft.pushDirectories .innerDirectories, behind)
    | ',' :: _ =>
      if draft.grouped then (draft.pushDirectories .trailingDirectories, rest) else plain
    | '\x7d' :: _ =>
      if draft.grouped then (draft.pushDirectories .trailingDirectories, rest) else plain
    | _ => plain

/-- Read the rest of a pattern. The fuel bounds the number of characters. -/
def readPieces : (fuel : Nat) → (before : Option Char) → Draft → List Char →
    Except Reason Pattern
  | 0, _, draft, _ => .ok draft.pieces.reverse
  | _ + 1, _, draft, [] =>
    if draft.grouped then .error .unclosedAlternatives else .ok draft.pieces.reverse
  | fuel + 1, before, draft, c :: rest =>
    match c with
    | '?' => readPieces fuel (some c) (draft.push .anyByte) rest
    | '*' =>
      match rest with
      | '*' :: rest =>
        let (draft, left) := readStars before draft rest
        let last := if left.length < rest.length then '/' else '*'
        readPieces fuel (some last) draft left
      | _ => readPieces fuel (some c) (draft.push .anyBytes) rest
    | '[' =>
      let (negated, inside) := match rest with
        | '!' :: inside => (true, inside)
        | '^' :: inside => (true, inside)
        | _ => (false, rest)
      match readClass [] true false inside with
      | .error reason => .error reason
      | .ok (ranges, rest) =>
        readPieces fuel (some ']')
          (draft.push (.byteClass negated (ranges.reverse.flatMap byteRanges))) rest
    | '\x7b' => readPieces fuel (some c) draft.enter rest
    | '\x7d' =>
      match draft.leave? with
      | none => .error .unopenedAlternatives
      | some draft => readPieces fuel (some c) draft rest
    | ',' =>
      readPieces fuel (some c) (if draft.grouped then draft.next else draft.pushLiteral c) rest
    | '\\' =>
      match rest with
      | [] => .error .danglingEscape
      | escaped :: rest => readPieces fuel (some escaped) (draft.pushLiteral escaped) rest
    | _ => readPieces fuel (some c) (draft.pushLiteral c) rest

/-- Read a pattern. -/
def read (pattern : String) : Except Fault Pattern :=
  (readPieces (pattern.length + 1) none {} pattern.toList).mapError (⟨pattern, ·⟩)

end WorkflowRepair.Glob
