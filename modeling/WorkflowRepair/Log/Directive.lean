import WorkflowRepair.Regex.Reader
import WorkflowRepair.Text.Blank
import WorkflowRepair.Text.Lossy
import WorkflowRepair.Text.Word

/-!
# Directives

A directive says what is logged: a level, or a target, perhaps a span in brackets with fields in
braces, and perhaps an equals sign and a level. Only whether a text is a directive matters here.

A directive is looked for in a text without the blanks around it, but its parts are taken from the
text with them, at the same positions.
-/

namespace WorkflowRepair.Log

/-- The names of the levels. -/
def levelNames : List String := ["off", "error", "warn", "info", "debug", "trace"]

/-- Whether a text is a level: its name in any case, its number, or nothing. -/
def isLevel (cs : List Char) : Bool :=
  let digits := if cs.head? == some '+' then cs.drop 1 else cs
  cs.isEmpty || levelNames.contains (String.ofList (cs.map Char.toLower)) ||
    (!digits.isEmpty && digits.all Char.isDigit &&
      digits.foldl (fun n c => n * 10 + (c.toNat - 48)) 0 ≤ 5)

/-- Whether a text behind a plus sign is a number. -/
def isUnsigned (cs : List Char) : Bool :=
  let whole := cs.takeWhile Char.isDigit
  let (decimals, rest) := match cs.dropWhile Char.isDigit with
    | '.' :: rest => (rest.takeWhile Char.isDigit, rest.dropWhile Char.isDigit)
    | rest => ([], rest)
  let exponentFits (rest : List Char) : Bool :=
    let digits := match rest with
      | '+' :: rest => rest
      | '-' :: rest => rest
      | rest => rest
    !digits.isEmpty && digits.all Char.isDigit
  ["inf", "infinity", "nan"].contains (String.ofList (cs.map Char.toLower)) ||
    (!(whole.isEmpty && decimals.isEmpty) &&
      match rest with
      | [] => true
      | e :: rest => (e == 'e' || e == 'E') && exponentFits rest)

/-- Whether a text is a value for a field: an expression, or a number with a plus sign. -/
def isFieldValue (cs : List Char) : Bool :=
  (Regex.Expression.read (String.ofList cs)).isSome ||
    (cs.head? == some '+' && isUnsigned (cs.drop 1))

/-- Whether a text is a field: a name, and perhaps an equals sign and a value. -/
def isField (cs : List Char) : Bool :=
  !cs.isEmpty &&
    match cs.dropWhile (· != '=') with
    | _ :: rest => isFieldValue (rest.takeWhile (· != '='))
    | [] => true

/-- Whether a directive may begin with a character. -/
def mayBegin (c : Char) : Bool :=
  c == '-' || c == ':' || c == '_' || c.isAlphanum || (128 ≤ c.toNat && Text.isWord c)

/-- What has been read of a directive, with the position at which the present part begins. -/
inductive State where
  | start
  | levelOrTarget
  | span
  | field (begin : Nat)
  | afterFields
  | afterSpan
  | level (begin : Nat)
  | complete
deriving DecidableEq, Repr

/-- The part of a text between two positions, counted in bytes. -/
def part (text : List UInt8) (begin stop : Nat) : List Char :=
  (Text.decodeLossy ((text.drop begin).take (stop - begin))).toList

/-- The state behind a character at a position, none if the text is no directive. -/
def State.next (text : List UInt8) (position : Nat) (c : Char) : State → Option State
  | .start =>
    if c = '[' then some .span else if mayBegin c then some .levelOrTarget else none
  | .levelOrTarget =>
    if c = '=' then some (.level (position + 1))
    else if c = '[' then some .span
    else if c = ',' then some .complete
    else some .levelOrTarget
  | .span =>
    if c = ']' then some .afterSpan
    else if c = '{' then some (.field (position + 1))
    else some .span
  | .field begin =>
    if c = '}' ∨ c = ',' then
      if isField (part text begin position) then
        some (if c = '}' then .afterFields else .field (position + 1))
      else none
    else some (.field begin)
  | .afterFields => if c = ']' then some .afterSpan else none
  | .afterSpan => if c = '=' then some (.level (position + 1)) else none
  | .level begin =>
    if c = ',' then if isLevel (part text begin position) then some .complete else none
    else some (.level begin)
  | .complete => none

/-- Whether a directive may end in a state. -/
def State.mayEnd (text : List UInt8) : State → Bool
  | .levelOrTarget => true
  | .afterSpan => true
  | .complete => true
  | .level begin => isLevel (part text begin text.length)
  | _ => false

/-- Whether the characters from a position on complete a directive. -/
def State.completes (text : List UInt8) : (position : Nat) → List Char → State → Bool
  | _, [], state => state.mayEnd text
  | position, c :: rest, state =>
    match state.next text position c with
    | some state => state.completes text (position + c.utf8Size) rest
    | none => false

/-- Whether a text is a directive. -/
def isDirective (text : String) : Bool :=
  State.start.completes (Text.encode text) 0 (Text.trim text.toList)

/-- Cut a text at every comma. -/
def splitCommas : List Char → List (List Char)
  | [] => [[]]
  | c :: rest =>
    if c = ',' then [] :: splitCommas rest
    else match splitCommas rest with
      | [] => [[c]]
      | piece :: others => (c :: piece) :: others

/-- Whether every piece between commas that is not empty is a directive. -/
def areDirectives (text : String) : Bool :=
  (splitCommas text.toList).all fun piece => piece.isEmpty || isDirective (String.ofList piece)

end WorkflowRepair.Log
