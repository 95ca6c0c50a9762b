import WorkflowRepair.Toml.Draft
import WorkflowRepair.Toml.Scalar
import WorkflowRepair.Toml.Text

/-!
# Reading configuration texts

`read` reads a TOML text into its table, none if the text is malformed. Why it is malformed is never
asked.
-/

namespace WorkflowRepair.Toml

/-! ## Blanks and comments -/

/-- The text behind a comment at its head, none if the comment holds a control character. -/
def afterComment? (cs : List Char) : Option (List Char) :=
  let rest := cs.dropWhile isPlain
  match rest with
  | [] => some []
  | _ => (afterNewline? rest).map fun _ => rest

/-- The text behind the rest of a line: blanks, perhaps a comment, and the end of the line or of the
text. -/
def afterLine? (cs : List Char) : Option (List Char) :=
  match skipSpaces cs with
  | '#' :: rest => (afterComment? rest).bind fun rest => some (skipNewline rest)
  | [] => some []
  | rest => afterNewline? rest

/-- The text behind blanks, ends of lines and comments, none if a comment is malformed. -/
def skipLines : (fuel : Nat) → List Char → Option (List Char)
  | 0, _ => none
  | fuel + 1, cs =>
    match skipSpaces cs with
    | '#' :: rest => (afterComment? rest).bind (skipLines fuel)
    | rest =>
      match afterNewline? rest with
      | some rest => skipLines fuel rest
      | none => some rest

/-- `skipLines` with fuel enough for any text. -/
def skipAll (cs : List Char) : Option (List Char) := skipLines (cs.length + 1) cs

/-! ## Values -/

section

variable (value : List Char → Option (Value × List Char))

/-- Read the items of an array up to its closing bracket. A comma may follow the last one. -/
def readItems : (fuel : Nat) → List Char → Option (List Value × List Char)
  | 0, _ => none
  | fuel + 1, cs =>
    match skipAll cs with
    | none => none
    | some (']' :: rest) => some ([], rest)
    | some rest =>
      match value rest with
      | none => none
      | some (item, rest) =>
        match skipAll rest with
        | some (',' :: rest) => (readItems fuel rest).map fun (items, rest) => (item :: items, rest)
        | some (']' :: rest) => some ([item], rest)
        | _ => none

/-- Read a key and its value. -/
def readPair (cs : List Char) : Option ((List String × Value) × List Char) :=
  match readKey cs with
  | some (key, '=' :: rest) => (value (skipSpaces rest)).map fun (v, rest) => ((key, v), rest)
  | _ => none

/-- Read the pairs of a table in braces up to its closing brace, into a draft. -/
def readPairs : (fuel : Nat) → Draft → List Char → Option (Draft × List Char)
  | 0, _, _ => none
  | fuel + 1, draft, cs =>
    match readPair value cs with
    | none => none
    | some ((key, v), rest) =>
      match draft.assign key v with
      | none => none
      | some draft =>
        match skipSpaces rest with
        | ',' :: rest => readPairs fuel draft rest
        | '}' :: rest => some (draft, rest)
        | _ => none

/-- Read a table in braces. -/
def readTable (cs : List Char) : Option (Value × List Char) :=
  match skipSpaces cs with
  | '}' :: rest => some (.table [], rest)
  | rest =>
    (readPairs value (rest.length + 1) (.empty .header) rest).map fun (draft, rest) =>
      (.table draft.members, rest)

end

/-- Read a value, with containers nested at most `depth` levels deep. -/
def readValue : (depth : Nat) → List Char → Option (Value × List Char)
  | depth, cs =>
    match cs with
    | '[' :: rest =>
      match depth with
      | 0 => none
      | depth + 1 =>
        (readItems (readValue depth) (rest.length + 1) rest).map fun (items, rest) =>
          (.array items, rest)
    | '{' :: rest =>
      match depth with
      | 0 => none
      | depth + 1 => readTable (readValue depth) rest
    | c :: rest =>
      if c == '"' || c == '\'' then
        (readText (c :: rest)).map fun (text, rest) => (.string (String.ofList text), rest)
      else readScalar (c :: rest)
    | [] => none

/-! ## Statements -/

/-- What has been read: all tables, and the path of the one that statements go to. -/
structure Progress where
  root : Draft
  path : List String

/-- Begin the table of a header, or one more of several. -/
def Progress.open (several : Bool) (path : List String) (progress : Progress) : Option Progress :=
  match path.getLast? with
  | none => none
  | some key =>
    let begin (draft : Draft) := if several then draft.openNext key else draft.openTable key
    (progress.root.change .way begin path.dropLast).map fun root => { root, path }

/-- Store a value in the current table. -/
def Progress.assign (key : List String) (value : Value) (progress : Progress) : Option Progress :=
  (progress.root.change .way (·.assign key value) progress.path).map fun root =>
    { progress with root }

/-- Read the statement at the head of a text: the header of a table, or a key and its value. -/
def readStatement (progress : Progress) : List Char → Option (Progress × List Char)
  | '[' :: '[' :: rest =>
    match readKey rest with
    | some (path, ']' :: ']' :: rest) => (progress.open true path).map (·, rest)
    | _ => none
  | '[' :: rest =>
    match readKey rest with
    | some (path, ']' :: rest) => (progress.open false path).map (·, rest)
    | _ => none
  | cs =>
    match readPair (readValue (maxDepth - 1)) cs with
    | some ((key, value), rest) => (progress.assign key value).map (·, rest)
    | none => none

/-- Read statements, one to a line, up to the end of the text. -/
def readStatements : (fuel : Nat) → Progress → List Char → Option Draft
  | 0, _, _ => none
  | fuel + 1, progress, cs =>
    match skipAll cs with
    | none => none
    | some [] => some progress.root
    | some rest =>
      match readStatement progress rest with
      | none => none
      | some (progress, rest) => (afterLine? rest).bind (readStatements fuel progress)

/-- Read a text. A byte order mark at its head is passed over. -/
def read (text : String) : Option Table :=
  let cs := match text.toList with
    | '\ufeff' :: rest => rest
    | cs => cs
  (readStatements (cs.length + 1) ⟨.empty .header, []⟩ cs).map Draft.members

end WorkflowRepair.Toml
