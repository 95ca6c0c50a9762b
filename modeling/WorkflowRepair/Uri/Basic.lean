/-!
# References to resources

A reference is split into five parts, of which all but the path may be missing. A relative
reference is resolved against the address of the resource it stands in.
-/

namespace WorkflowRepair.Uri

/-- The parts of a reference. -/
structure Reference where
  scheme : Option (List Char) := none
  authority : Option (List Char) := none
  path : List Char := []
  query : Option (List Char) := none
  fragment : Option (List Char) := none
deriving DecidableEq, Repr

/-- Cut a text at the first of some characters: what stands before it, and, if there is one, that
character and what stands behind it. -/
def cut (stops : List Char) (cs : List Char) : List Char × List Char :=
  (cs.takeWhile fun c => !stops.contains c, cs.dropWhile fun c => !stops.contains c)

/-- Take a scheme off: text before a colon that no slash, question mark or number sign precedes. -/
def splitScheme (cs : List Char) : Option (List Char) × List Char :=
  match cut [':', '/', '?', '#'] cs with
  | ([], _) => (none, cs)
  | (scheme, ':' :: rest) => (some scheme, rest)
  | _ => (none, cs)

/-- Take an authority off: text behind two slashes. -/
def splitAuthority : List Char → Option (List Char) × List Char
  | '/' :: '/' :: rest =>
    let (authority, rest) := cut ['/', '?', '#'] rest
    (some authority, rest)
  | cs => (none, cs)

/-- Split a reference. -/
def Reference.split (cs : List Char) : Reference :=
  let (scheme, cs) := splitScheme cs
  let (authority, cs) := splitAuthority cs
  let (path, cs) := cut ['?', '#'] cs
  let (query, cs) := match cs with
    | '?' :: rest => let (query, rest) := cut ['#'] rest; (some query, rest)
    | _ => (none, cs)
  let fragment := match cs with
    | '#' :: rest => some rest
    | _ => none
  { scheme, authority, path, query, fragment }

namespace Reference

/-- The text of a reference. -/
def text (r : Reference) : List Char :=
  (match r.scheme with | some s => s ++ [':'] | none => []) ++
    (match r.authority with | some a => '/' :: '/' :: a | none => []) ++ r.path ++
    (match r.query with | some q => '?' :: q | none => []) ++
    (match r.fragment with | some f => '#' :: f | none => [])

/-- The reference to the whole resource. -/
def whole (r : Reference) : Reference := { r with fragment := none }

end Reference

/-- Cut a path at every slash. -/
def segments : List Char → List (List Char)
  | [] => [[]]
  | c :: rest =>
    if c = '/' then [] :: segments rest
    else match segments rest with
      | [] => [[c]]
      | segment :: others => (c :: segment) :: others

/-- Leave out segments of one dot, and with a segment of two dots the one before it. `done` holds
the segments so far, last one first. A dotted segment at the end leaves an empty one. -/
def dropDots (done : List (List Char)) : List (List Char) → List (List Char)
  | [] => done.reverse
  | [['.']] => ([] :: done).reverse
  | [['.', '.']] => ([] :: done.drop 1).reverse
  | ['.'] :: rest => dropDots done rest
  | ['.', '.'] :: rest => dropDots (done.drop 1) rest
  | segment :: rest => dropDots (segment :: done) rest

/-- A path without dotted segments. -/
def normalPath : List Char → List Char
  | '/' :: path => '/' :: ['/'].intercalate (dropDots [] (segments path))
  | path => path

/-- A relative path put in place of the last segment of another. -/
def mergePath (base : Reference) (path : List Char) : List Char :=
  if base.authority.isSome && base.path.isEmpty then '/' :: path
  else (base.path.reverse.dropWhile (· != '/')).reverse ++ path

/-- The reference that `r` makes in the resource `base`. -/
def Reference.resolve (base r : Reference) : Reference :=
  if r.scheme.isSome then { r with path := normalPath r.path }
  else if r.authority.isSome then { r with scheme := base.scheme, path := normalPath r.path }
  else if r.path.isEmpty then
    { base with query := r.query.or base.query, fragment := r.fragment }
  else
    { base with
      path := normalPath (if r.path.head? == some '/' then r.path else mergePath base r.path)
      query := r.query
      fragment := r.fragment }

end WorkflowRepair.Uri
