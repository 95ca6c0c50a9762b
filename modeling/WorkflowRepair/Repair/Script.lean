import WorkflowRepair.Text.Blank
import WorkflowRepair.Text.Replace
import WorkflowRepair.Text.Word

/-!
# Use before declaration

A script may compare a variable with the empty string before it declares the variable. Where such a
check stands alone in an `if` statement, the statement is replaced by a marker.

This is a search on the text, not a parser: checks in strings and comments count, and a statement
whose body holds a brace is not recognised. `removePremature` is one pass, `fix` repeats it, since
replacing an inner statement can bare the one around it.
-/

namespace WorkflowRepair.Repair

open Text

/-! ## The three patterns -/

/-- A comparison for equality or inequality, loose or strict: the text behind it. -/
def comparison? : List Char → Option (List Char)
  | '!' :: '=' :: '=' :: rest => some rest
  | '!' :: '=' :: rest => some rest
  | '=' :: '=' :: '=' :: rest => some rest
  | '=' :: '=' :: rest => some rest
  | _ => none

/-- An empty string in single or double quotes: the text behind it. -/
def emptyString? : List Char → Option (List Char)
  | '\'' :: '\'' :: rest => some rest
  | '"' :: '"' :: rest => some rest
  | _ => none

/-- One given character behind any blanks: the text behind it. -/
def symbol? (symbol : Char) (cs : List Char) : Option (List Char) :=
  after? [symbol] (skipBlanks cs)

/-- A check at the head of the text: the variable at a word boundary, a comparison and an empty
string. -/
def check? (name : List Char) (before : Option Char) (cs : List Char) :
    Option (List Char) :=
  if isBoundary before cs.head? then do
    let rest ← after? name cs
    let rest ← comparison? (skipBlanks rest)
    emptyString? (skipBlanks rest)
  else none

/-- Whether at least one blank and then a text that passes `test` stand here. -/
def afterBlanks (test : List Char → Bool) : List Char → Bool
  | [] => false
  | c :: rest => isBlank c && (test rest || afterBlanks test rest)

/-- Whether a declaration stands at the head of the text: `let` at a word boundary, the variable
and an equals sign. -/
def declares (name : List Char) (before : Option Char) (cs : List Char) : Bool :=
  isBoundary before cs.head? &&
    ((after? ['l', 'e', 't'] cs).any <| afterBlanks fun rest =>
      (after? name rest).any fun rest => (symbol? '=' rest).isSome)

/-- The body of a statement: braces around anything but braces. -/
def body? (cs : List Char) : Option (List Char) :=
  (symbol? '{' cs).bind fun inside =>
    after? ['}'] (inside.dropWhile fun c => c != '{' && c != '}')

/-- A removable statement at the head of the text: `if` at a word boundary, a check in parentheses
and a body. What stands before the check is the parenthesis or a blank; neither is a word
character. -/
def statement? (name : List Char) (before : Option Char) (cs : List Char) :
    Option (List Char) :=
  if isBoundary before cs.head? then do
    let rest ← after? ['i', 'f'] cs
    let rest ← symbol? '(' rest
    let rest ← check? name (some '(') (skipBlanks rest)
    let rest ← symbol? ')' rest
    body? rest
  else none

/-! ## Searching -/

/-- How many characters stand before the first place that passes `test`. -/
def findStart (test : Option Char → List Char → Bool) : (before : Option Char) → List Char →
    Option Nat
  | _, [] => none
  | before, c :: rest =>
    if test before (c :: rest) then some 0 else (findStart test (some c) rest).map (· + 1)

/-- The place of the first check. -/
def firstCheck (name code : List Char) : Option Nat :=
  findStart (fun before cs => (check? name before cs).isSome) none code

/-- The place of the first declaration. -/
def firstDeclaration (name code : List Char) : Option Nat :=
  findStart (declares name) none code

/-- Count the checks, leftmost first and without overlaps. The next `skip` characters belong to a
check already counted. -/
def countChecksFrom (name : List Char) : (skip : Nat) → (before : Option Char) → List Char →
    Nat
  | _, _, [] => 0
  | skip + 1, _, c :: rest => countChecksFrom name skip (some c) rest
  | 0, before, c :: rest =>
    match check? name before (c :: rest) with
    | some behind => countChecksFrom name (rest.length - behind.length) (some c) rest + 1
    | none => countChecksFrom name 0 (some c) rest

/-- The number of checks in a script. -/
def countChecks (name code : List Char) : Nat := countChecksFrom name 0 none code

/-- Whether a text holds a check or a declaration. -/
def mentions (name text : List Char) : Bool :=
  (firstCheck name text).isSome || (firstDeclaration name text).isSome

/-! ## Replacing -/

/-- Replace the statements that end within the next `limit` characters, and count them. A statement
that goes on beyond them ends the search. The next `skip` characters belong to a statement already
replaced. -/
def replaceStatements (name marker : List Char) : (limit skip : Nat) →
    (before : Option Char) → List Char → List Char × Nat
  | _, _, _, [] => ([], 0)
  | limit, skip + 1, _, c :: rest =>
    replaceStatements name marker (limit - 1) skip (some c) rest
  | limit, 0, before, c :: rest =>
    match statement? name before (c :: rest) with
    | some behind =>
      if rest.length + 1 - behind.length ≤ limit then
        let (out, count) := replaceStatements name marker (limit - 1)
          (rest.length - behind.length) (some c) rest
        (marker ++ out, count + 1)
      else (c :: rest, 0)
    | none =>
      let (out, count) := replaceStatements name marker (limit - 1) 0 (some c) rest
      (c :: out, count)

/-- Replace every removable statement that ends before the first declaration: the new script and
how many there were, none if there were none. -/
def removePremature (name marker code : List Char) : Option (List Char × Nat) :=
  match firstDeclaration name code with
  | none => none
  | some declared =>
    let (out, count) := replaceStatements name marker declared 0 none code
    if count = 0 then none else some (out, count)

/-- Repeat `removePremature` until it finds nothing, at most `passes` times: the script and how
many statements were replaced. -/
def removeRepeatedly (name marker : List Char) : (passes : Nat) → (code : List Char) →
    List Char × Nat
  | 0, code => (code, 0)
  | passes + 1, code =>
    match removePremature name marker code with
    | none => (code, 0)
    | some (next, count) =>
      let (out, more) := removeRepeatedly name marker passes next
      (out, count + more)

/-- What became of a script. -/
inductive Fix where
  /-- No check precedes the declaration. -/
  | clean
  /-- Statements were replaced. -/
  | patched (code : List Char) (removed : Nat)
  /-- A check precedes the declaration, but no removable statement holds it. -/
  | unrecognized
deriving DecidableEq, Repr

/-- Whether the first check stands before the first declaration. -/
def checksEarly (name code : List Char) : Bool :=
  match firstCheck name code, firstDeclaration name code with
  | some check, some declaration => check < declaration
  | _, _ => false

/-- Replace the premature checks of a script, in at most as many passes as the script has checks to
begin with. -/
def fix (name marker code : List Char) : Fix :=
  if checksEarly name code then
    let (out, removed) := removeRepeatedly name marker (countChecks name code) code
    if removed = 0 then .unrecognized else .patched out removed
  else .clean

end WorkflowRepair.Repair
