/-!
# Strings and keys

The four forms of strings in a TOML text, and keys. Between double quotes a backslash begins an
escape, between single quotes everything stands for itself, and three quotes open a string that may
run over lines.
-/

namespace WorkflowRepair.Toml

/-- Whether a character may stand in a comment, or for itself in a string. -/
def isPlain (c : Char) : Bool := c == '\t' || (0x20 ≤ c.toNat && c.toNat != 0x7F)

/-- Whether a character is a blank within a line. -/
def isSpace (c : Char) : Bool := c == ' ' || c == '\t'

/-- The text without the blanks at its head. -/
def skipSpaces (cs : List Char) : List Char := cs.dropWhile isSpace

/-- The text behind the end of a line at its head. -/
def afterNewline? : List Char → Option (List Char)
  | '\n' :: rest => some rest
  | '\r' :: '\n' :: rest => some rest
  | _ => none

/-- The value of a hexadecimal digit. -/
def hexValue? (c : Char) : Option Nat :=
  if c.isDigit then some (c.toNat - 48)
  else if 'a' ≤ c && c ≤ 'f' then some (c.toNat - 87)
  else if 'A' ≤ c && c ≤ 'F' then some (c.toNat - 55)
  else none

/-- The character that hexadecimal digits number. -/
def numbered? (digits : List Char) : Option Char :=
  (digits.mapM hexValue?).bind fun values =>
    let n := values.foldl (fun n d => n * 16 + d) 0
    if n.isValidChar then some (Char.ofNat n) else none

/-- The character that a letter behind a backslash stands for. -/
def escape? : Char → Option Char
  | 'b' => some '\x08'
  | 'f' => some '\x0c'
  | 'n' => some '\n'
  | 'r' => some '\r'
  | 't' => some '\t'
  | '"' => some '"'
  | '\\' => some '\\'
  | _ => none

/-- Read a string up to its double quote. -/
def readBasic (read : List Char) : List Char → Option (List Char × List Char)
  | [] => none
  | '"' :: rest => some (read.reverse, rest)
  | '\\' :: 'u' :: a :: b :: c :: d :: rest =>
    match numbered? [a, b, c, d] with
    | some ch => readBasic (ch :: read) rest
    | none => none
  | '\\' :: 'U' :: a :: b :: c :: d :: e :: f :: g :: h :: rest =>
    match numbered? [a, b, c, d, e, f, g, h] with
    | some ch => readBasic (ch :: read) rest
    | none => none
  | '\\' :: c :: rest =>
    match escape? c with
    | some ch => readBasic (ch :: read) rest
    | none => none
  | c :: rest => if isPlain c && c != '\\' then readBasic (c :: read) rest else none

/-- Read a string up to its three double quotes, which may have one or two more before them. While
`folding`, blanks and ends of lines are passed over. -/
def readBasicLines (folding : Bool) (read : List Char) : List Char → Option (List Char × List Char)
  | [] => none
  | '"' :: '"' :: '"' :: '"' :: '"' :: rest => some ('"' :: '"' :: read |>.reverse, rest)
  | '"' :: '"' :: '"' :: '"' :: rest => some ('"' :: read |>.reverse, rest)
  | '"' :: '"' :: '"' :: rest => some (read.reverse, rest)
  | '"' :: rest => readBasicLines false ('"' :: read) rest
  | '\r' :: '\n' :: rest => readBasicLines folding (if folding then read else '\n' :: read) rest
  | '\n' :: rest => readBasicLines folding (if folding then read else '\n' :: read) rest
  | '\\' :: 'u' :: a :: b :: c :: d :: rest =>
    match numbered? [a, b, c, d] with
    | some ch => readBasicLines false (ch :: read) rest
    | none => none
  | '\\' :: 'U' :: a :: b :: c :: d :: e :: f :: g :: h :: rest =>
    match numbered? [a, b, c, d, e, f, g, h] with
    | some ch => readBasicLines false (ch :: read) rest
    | none => none
  | '\\' :: c :: rest =>
    match escape? c with
    | some ch => readBasicLines false (ch :: read) rest
    | none =>
      if (afterNewline? (skipSpaces (c :: rest))).isSome then readBasicLines true read (c :: rest)
      else none
  | c :: rest =>
    if folding && isSpace c then readBasicLines true read rest
    else if isPlain c && c != '\\' then readBasicLines false (c :: read) rest
    else none

/-- Read a string up to its single quote. -/
def readLiteral (read : List Char) : List Char → Option (List Char × List Char)
  | [] => none
  | '\'' :: rest => some (read.reverse, rest)
  | c :: rest => if isPlain c then readLiteral (c :: read) rest else none

/-- Read a string up to its three single quotes, which may have one or two more before them. -/
def readLiteralLines (read : List Char) : List Char → Option (List Char × List Char)
  | [] => none
  | '\'' :: '\'' :: '\'' :: '\'' :: '\'' :: rest => some ('\'' :: '\'' :: read |>.reverse, rest)
  | '\'' :: '\'' :: '\'' :: '\'' :: rest => some ('\'' :: read |>.reverse, rest)
  | '\'' :: '\'' :: '\'' :: rest => some (read.reverse, rest)
  | '\r' :: '\n' :: rest => readLiteralLines ('\n' :: read) rest
  | '\n' :: rest => readLiteralLines ('\n' :: read) rest
  | c :: rest => if isPlain c then readLiteralLines (c :: read) rest else none

/-- The text without the end of a line at its head, if there is one. -/
def skipNewline (cs : List Char) : List Char := (afterNewline? cs).getD cs

/-- Read a string of any form. -/
def readText : List Char → Option (List Char × List Char)
  | '"' :: '"' :: '"' :: rest => readBasicLines false [] (skipNewline rest)
  | '"' :: rest => readBasic [] rest
  | '\'' :: '\'' :: '\'' :: rest => readLiteralLines [] (skipNewline rest)
  | '\'' :: rest => readLiteral [] rest
  | _ => none

/-! ## Keys -/

/-- Whether a character may stand in a key without quotes. -/
def isBareKeyChar (c : Char) : Bool := c.isAlphanum || c == '_' || c == '-'

/-- Read one part of a key. -/
def readKeyPart : List Char → Option (String × List Char)
  | '"' :: rest => (readBasic [] rest).map fun (key, rest) => (String.ofList key, rest)
  | '\'' :: rest => (readLiteral [] rest).map fun (key, rest) => (String.ofList key, rest)
  | cs =>
    let key := cs.takeWhile isBareKeyChar
    if key.isEmpty then none else some (String.ofList key, cs.drop key.length)

/-- Read a key: parts with dots between them, and blanks around each. -/
def readKeyWithin : (fuel : Nat) → List Char → Option (List String × List Char)
  | 0, _ => none
  | fuel + 1, cs =>
    match readKeyPart (skipSpaces cs) with
    | none => none
    | some (part, rest) =>
      match skipSpaces rest with
      | '.' :: rest => (readKeyWithin fuel rest).map fun (parts, rest) => (part :: parts, rest)
      | rest => some ([part], rest)

/-- The number of parts of a key, and of containers in each other, that is refused. -/
def maxDepth : Nat := 80

/-- Read a key of less than `maxDepth` parts. -/
def readKey (cs : List Char) : Option (List String × List Char) := readKeyWithin (maxDepth - 1) cs

end WorkflowRepair.Toml
