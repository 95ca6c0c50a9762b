import WorkflowRepair.Json.Value

/-!
# Reading JSON

`readText` reads one value that fills the whole text. A refusal names its cause and the line and
column at which it was noticed; columns count bytes.

The readers work on the characters still to be read and hand back what is left. `readValue` goes
down by one nesting level at each container, and within a level the readers recurse on the text.
-/

namespace WorkflowRepair.Json

/-! ## Refusals -/

/-- Why a text is no JSON value. -/
inductive Cause where
  | endInArray
  | endInObject
  | endInString
  | endInValue
  | expectedColon
  | expectedItemEnd
  | expectedMemberEnd
  | expectedWord
  | expectedValue
  | invalidEscape
  | invalidNumber
  | numberOutOfRange
  | controlCharacter
  | keyNotString
  | loneSurrogate
  | trailingComma
  | trailingCharacters
  | unfinishedSurrogate
  | tooDeep
deriving DecidableEq, Repr

/-- The wording of a cause. -/
def Cause.message : Cause → String
  | .endInArray => "EOF while parsing a list"
  | .endInObject => "EOF while parsing an object"
  | .endInString => "EOF while parsing a string"
  | .endInValue => "EOF while parsing a value"
  | .expectedColon => "expected `:`"
  | .expectedItemEnd => "expected `,` or `]`"
  | .expectedMemberEnd => "expected `,` or `\x7d`"
  | .expectedWord => "expected ident"
  | .expectedValue => "expected value"
  | .invalidEscape => "invalid escape"
  | .invalidNumber => "invalid number"
  | .numberOutOfRange => "number out of range"
  | .controlCharacter => "control character (\\u0000-\\u001F) found while parsing a string"
  | .keyNotString => "key must be a string"
  | .loneSurrogate => "lone leading surrogate in hex escape"
  | .trailingComma => "trailing comma"
  | .trailingCharacters => "trailing characters"
  | .unfinishedSurrogate => "unexpected end of hex escape"
  | .tooDeep => "recursion limit exceeded"

/-- A refusal inside a text: the cause, the characters not yet read, and how many bytes of them
count as read all the same. -/
structure Fault where
  cause : Cause
  rest : List Char
  beyond : Nat
deriving Repr

/-- A refusal noticed at the next byte, which counts as read if there is one. -/
def Fault.peeked (cause : Cause) (rest : List Char) : Fault :=
  ⟨cause, rest, if rest.isEmpty then 0 else 1⟩

/-- A refusal with its place in the text. -/
structure SyntaxError where
  cause : Cause
  line : Nat
  column : Nat
deriving DecidableEq, Repr

/-- The wording of a refusal. -/
def SyntaxError.message (e : SyntaxError) : String :=
  e.cause.message ++ " at line " ++ toString e.line ++ " column " ++ toString e.column

/-- The bytes of a character sequence. -/
def byteCount (cs : List Char) : Nat := cs.foldr (fun c count => c.utf8Size + count) 0

/-- Where the byte with number `read` stands: lines count from one, and the column is the number
of bytes read of the line. -/
def SyntaxError.locate (cause : Cause) (text : String) (read : Nat) : SyntaxError :=
  let before := text.toUTF8.toList.take read
  { cause
    line := 1 + before.countP (· == 10)
    column := (before.reverse.takeWhile (· != 10)).length }

/-! ## Blanks and fixed words -/

/-- The four blanks of the format. -/
def isBlank (c : Char) : Bool := c == ' ' || c == '\t' || c == '\n' || c == '\r'

/-- The text after leading blanks. -/
def skipBlanks (cs : List Char) : List Char := cs.dropWhile isBlank

/-- Read the remaining letters of a fixed word. -/
def readWord (value : Value) : (letters : List Char) → List Char →
    Except Fault (Value × List Char)
  | [], rest => .ok (value, rest)
  | _ :: _, [] => .error ⟨.endInValue, [], 0⟩
  | l :: letters, c :: rest =>
    if c = l then readWord value letters rest else .error ⟨.expectedWord, c :: rest, 1⟩

/-! ## Numbers -/

/-- The largest integer that is held exactly. -/
def maxInteger : Nat := Nat.pow 2 64 - 1

/-- The value of a decimal digit. -/
def digitValue (c : Char) : Nat := c.toNat - 48

/-- Read digits into a significand for as long as it stays within `maxInteger`. -/
def readSignificand : (significand : Nat) → List Char → Nat × List Char
  | significand, [] => (significand, [])
  | significand, c :: rest =>
    if c.isDigit && decide (significand * 10 + digitValue c ≤ maxInteger) then
      readSignificand (significand * 10 + digitValue c) rest
    else (significand, c :: rest)

/-- The power `10 ^ exponent` for an exponent of at most 308. -/
def powerOfTen (exponent : Nat) : Float := Float.ofScientific 1 false exponent

/-- Divide by `10 ^ exponent`, by steps of at most `10 ^ 308`; a third step always meets zero. -/
def scaleDown : (steps : Nat) → (value : Float) → (exponent : Nat) → Float
  | 0, value, _ => value
  | steps + 1, value, exponent =>
    if exponent ≤ 308 then value / powerOfTen exponent
    else if value == 0.0 then value
    else scaleDown steps (value / powerOfTen 308) (exponent - 308)

/-- The fraction `significand * 10 ^ exponent`, computed in binary; none if it is infinite. -/
def fraction? (significand : Nat) (exponent : Int) : Option Float :=
  let value := significand.toUInt64.toFloat
  if 0 ≤ exponent then
    if exponent ≤ 308 then
      let scaled := value * powerOfTen exponent.toNat
      if scaled.isInf then none else some scaled
    else if value == 0.0 then some value
    else none
  else some (scaleDown 4 value (-exponent).toNat)

/-- A fraction as a number with its sign, or the refusal of one that is infinite. -/
def finishFraction (negative : Bool) (significand : Nat) (exponent : Int) (rest : List Char) :
    Except Fault (Number × List Char) :=
  match fraction? significand exponent with
  | some x => .ok (.float (if negative then -x else x), rest)
  | none => .error ⟨.numberOutOfRange, rest, 0⟩

/-- The largest magnitude of a written exponent that is taken at its value. -/
def maxExponent : Nat := Nat.pow 2 31 - 1

/-- Read the digits of an exponent after the first. -/
def readExponentDigits (negative : Bool) (significand : Nat) (base : Int) (down : Bool) :
    (exponent : Nat) → List Char → Except Fault (Number × List Char)
  | exponent, c :: rest =>
    if c.isDigit then
      if exponent * 10 + digitValue c ≤ maxExponent then
        readExponentDigits negative significand base down (exponent * 10 + digitValue c) rest
      else if significand ≠ 0 ∧ ¬ down then .error ⟨.numberOutOfRange, rest, 0⟩
      else .ok (.float (if negative then -0.0 else 0.0), rest.dropWhile Char.isDigit)
    else
      finishFraction negative significand (if down then base - exponent else base + exponent)
        (c :: rest)
  | exponent, [] =>
    finishFraction negative significand (if down then base - exponent else base + exponent) []

/-- Read an exponent, the text behind its letter. -/
def readExponent (negative : Bool) (significand : Nat) (base : Int) (cs : List Char) :
    Except Fault (Number × List Char) :=
  let (down, digits) := match cs with
    | '+' :: rest => (false, rest)
    | '-' :: rest => (true, rest)
    | _ => (false, cs)
  match digits with
  | [] => .error ⟨.endInValue, [], 0⟩
  | c :: rest =>
    if c.isDigit then readExponentDigits negative significand base down (digitValue c) rest
    else .error ⟨.invalidNumber, c :: rest, 1⟩

/-- Go on behind the digits of a fraction: an exponent may follow. -/
def finishDigits (negative : Bool) (significand : Nat) (exponent : Int) (cs : List Char) :
    Except Fault (Number × List Char) :=
  match cs with
  | 'e' :: rest => readExponent negative significand exponent rest
  | 'E' :: rest => readExponent negative significand exponent rest
  | _ => finishFraction negative significand exponent cs

/-- Read the digits behind a decimal point. Digits for which the significand has no room are
passed over. -/
def readDecimals (negative : Bool) (significand : Nat) (exponent : Int) (cs : List Char) :
    Except Fault (Number × List Char) :=
  let (widened, rest) := readSignificand significand cs
  let taken := cs.length - rest.length
  match rest with
  | [] =>
    if taken = 0 then .error ⟨.endInValue, [], 0⟩
    else finishDigits negative widened (exponent - taken) []
  | c :: _ =>
    if c.isDigit then
      finishDigits negative widened (exponent - taken) (rest.dropWhile Char.isDigit)
    else if taken = 0 then .error (.peeked .invalidNumber rest)
    else finishDigits negative widened (exponent - taken) rest

/-- An integer with its sign. Minus zero and integers out of range become fractions. -/
def signedInteger (negative : Bool) (significand : Nat) : Number :=
  if negative then
    if significand = 0 ∨ Nat.pow 2 63 < significand then .float (-significand.toUInt64.toFloat)
    else .integer (-significand)
  else .integer significand

/-- Go on behind the digits before the point, all of which are in the significand. -/
def finishInteger (negative : Bool) (significand : Nat) (cs : List Char) :
    Except Fault (Number × List Char) :=
  match cs with
  | '.' :: rest => readDecimals negative significand 0 rest
  | 'e' :: rest => readExponent negative significand 0 rest
  | 'E' :: rest => readExponent negative significand 0 rest
  | _ => .ok (signedInteger negative significand, cs)

/-- Read a number behind its sign. Digits for which the significand has no room only raise the
exponent. -/
def readNumber (negative : Bool) (cs : List Char) : Except Fault (Number × List Char) :=
  match cs with
  | [] => .error ⟨.endInValue, [], 0⟩
  | '0' :: rest =>
    match rest with
    | d :: _ => if d.isDigit then .error (.peeked .invalidNumber rest)
      else finishInteger negative 0 rest
    | [] => finishInteger negative 0 []
  | c :: _ =>
    if c.isDigit then
      let (significand, rest) := readSignificand 0 cs
      let dropped := rest.takeWhile Char.isDigit
      let behind := rest.dropWhile Char.isDigit
      if dropped.isEmpty then finishInteger negative significand rest
      else match behind with
        | '.' :: rest => readDecimals negative significand dropped.length rest
        | _ => finishDigits negative significand dropped.length behind
    else .error ⟨.invalidNumber, cs, 1⟩

/-! ## Strings -/

/-- The value of a hexadecimal digit. -/
def hexValue? (c : Char) : Option Nat :=
  if '0' ≤ c ∧ c ≤ '9' then some (c.toNat - 48)
  else if 'a' ≤ c ∧ c ≤ 'f' then some (c.toNat - 87)
  else if 'A' ≤ c ∧ c ≤ 'F' then some (c.toNat - 55)
  else none

/-- The number that four hexadecimal digits at the head of the text write. -/
def hexQuad? : List Char → Option Nat
  | a :: b :: c :: d :: _ => do
    let a ← hexValue? a
    let b ← hexValue? b
    let c ← hexValue? c
    let d ← hexValue? d
    return ((a * 16 + b) * 16 + c) * 16 + d
  | _ => none

/-- Read four hexadecimal digits; the text must hold at least four bytes. -/
def readHexQuad (cs : List Char) : Except Fault Nat :=
  if byteCount cs < 4 then .error ⟨.endInString, [], 0⟩
  else match hexQuad? cs with
    | some n => .ok n
    | none => .error ⟨.invalidEscape, cs, 4⟩

/-- Read the second half of a surrogate pair, behind the digits of the first. -/
def readTrail (lead : Nat) (cs : List Char) : Except Fault Char :=
  match cs with
  | [] => .error ⟨.endInString, [], 0⟩
  | '\\' :: [] => .error ⟨.endInString, [], 0⟩
  | '\\' :: 'u' :: digits =>
    match readHexQuad digits with
    | .error e => .error e
    | .ok trail =>
      if 0xDC00 ≤ trail ∧ trail ≤ 0xDFFF then
        .ok (Char.ofNat (0x10000 + (lead - 0xD800) * 0x400 + (trail - 0xDC00)))
      else .error ⟨.loneSurrogate, digits.drop 4, 0⟩
  | '\\' :: rest => .error ⟨.unfinishedSurrogate, rest, 1⟩
  | _ => .error ⟨.unfinishedSurrogate, cs, 1⟩

/-- Read an escape behind its backslash: the character it stands for and how many characters of
the text it takes. -/
def readEscape (cs : List Char) : Except Fault (Char × Nat) :=
  match cs with
  | [] => .error ⟨.endInString, [], 0⟩
  | '"' :: _ => .ok ('"', 1)
  | '\\' :: _ => .ok ('\\', 1)
  | '/' :: _ => .ok ('/', 1)
  | 'b' :: _ => .ok ('\x08', 1)
  | 'f' :: _ => .ok ('\x0c', 1)
  | 'n' :: _ => .ok ('\n', 1)
  | 'r' :: _ => .ok ('\r', 1)
  | 't' :: _ => .ok ('\t', 1)
  | 'u' :: digits =>
    match readHexQuad digits with
    | .error e => .error e
    | .ok n =>
      if 0xDC00 ≤ n ∧ n ≤ 0xDFFF then .error ⟨.loneSurrogate, digits.drop 4, 0⟩
      else if 0xD800 ≤ n ∧ n ≤ 0xDBFF then
        match readTrail n (digits.drop 4) with
        | .error e => .error e
        | .ok c => .ok (c, 11)
      else .ok (Char.ofNat n, 5)
  | _ => .error ⟨.invalidEscape, cs, 1⟩

/-- Read the inside of a string up to its closing quote. The next `skip` characters belong to an
escape already read, and `read` holds the characters of the string so far, last first. -/
def readString : (skip : Nat) → (read : List Char) → List Char →
    Except Fault (String × List Char)
  | _, _, [] => .error ⟨.endInString, [], 0⟩
  | skip + 1, read, _ :: rest => readString skip read rest
  | 0, read, c :: rest =>
    if c = '"' then .ok (String.ofList read.reverse, rest)
    else if c = '\\' then
      match readEscape rest with
      | .error e => .error e
      | .ok (escaped, length) => readString length (escaped :: read) rest
    else if c.toNat < 32 then .error ⟨.controlCharacter, rest, 0⟩
    else readString 0 (c :: read) rest

/-! ## Containers -/

/-- Read the items of an array, the first of which starts here, and the closing bracket. The fuel
bounds the number of items. -/
def readItems (item : List Char → Except Fault (Value × List Char)) : (fuel : Nat) → List Char →
    Except Fault (List Value × List Char)
  | 0, _ => .error ⟨.endInArray, [], 0⟩
  | fuel + 1, cs =>
    match item cs with
    | .error e => .error e
    | .ok (v, rest) =>
      match skipBlanks rest with
      | [] => .error ⟨.endInArray, [], 0⟩
      | ']' :: rest => .ok ([v], rest)
      | ',' :: rest =>
        match skipBlanks rest with
        | [] => .error ⟨.endInValue, [], 0⟩
        | ']' :: rest => .error (.peeked .trailingComma (']' :: rest))
        | rest =>
          match readItems item fuel rest with
          | .error e => .error e
          | .ok (vs, rest) => .ok (v :: vs, rest)
      | rest => .error (.peeked .expectedItemEnd rest)

/-- Read an array behind its opening bracket. -/
def readArray (item : List Char → Except Fault (Value × List Char)) (cs : List Char) :
    Except Fault (List Value × List Char) :=
  match skipBlanks cs with
  | [] => .error ⟨.endInArray, [], 0⟩
  | ']' :: rest => .ok ([], rest)
  | rest => readItems item (rest.length + 1) rest

/-- Read one member, behind the quote that opens its key. -/
def readMember (item : List Char → Except Fault (Value × List Char)) (cs : List Char) :
    Except Fault ((String × Value) × List Char) :=
  match readString 0 [] cs with
  | .error e => .error e
  | .ok (key, rest) =>
    match skipBlanks rest with
    | [] => .error ⟨.endInObject, [], 0⟩
    | ':' :: rest =>
      match item rest with
      | .error e => .error e
      | .ok (v, rest) => .ok ((key, v), rest)
    | rest => .error (.peeked .expectedColon rest)

/-- Read the members of an object, behind the quote that opens the first key, and the closing
brace. The fuel bounds the number of members. -/
def readMembers (item : List Char → Except Fault (Value × List Char)) : (fuel : Nat) →
    List Char → Except Fault (List (String × Value) × List Char)
  | 0, _ => .error ⟨.endInObject, [], 0⟩
  | fuel + 1, cs =>
    match readMember item cs with
    | .error e => .error e
    | .ok (member, rest) =>
      match skipBlanks rest with
      | [] => .error ⟨.endInObject, [], 0⟩
      | '}' :: rest => .ok ([member], rest)
      | ',' :: rest =>
        match skipBlanks rest with
        | [] => .error ⟨.endInValue, [], 0⟩
        | '"' :: rest =>
          match readMembers item fuel rest with
          | .error e => .error e
          | .ok (members, rest) => .ok (member :: members, rest)
        | '}' :: rest => .error (.peeked .trailingComma ('}' :: rest))
        | rest => .error (.peeked .keyNotString rest)
      | rest => .error (.peeked .expectedMemberEnd rest)

/-- Read an object behind its opening brace. -/
def readObject (item : List Char → Except Fault (Value × List Char)) (cs : List Char) :
    Except Fault (List (String × Value) × List Char) :=
  match skipBlanks cs with
  | [] => .error ⟨.endInObject, [], 0⟩
  | '}' :: rest => .ok ([], rest)
  | '"' :: rest => readMembers item (rest.length + 1) rest
  | rest => .error (.peeked .keyNotString rest)

/-- The members of an object from the pairs in its text: a repeated key keeps its first place and
takes its last value. -/
def collectMembers (pairs : List (String × Value)) : Members :=
  pairs.foldl (fun members pair => Members.insert pair.1 pair.2 members) []

/-- Read a value, with containers nested at most `depth` levels deep. -/
def readValue : (depth : Nat) → List Char → Except Fault (Value × List Char)
  | depth, cs =>
    match skipBlanks cs with
    | [] => .error ⟨.endInValue, [], 0⟩
    | 'n' :: rest => readWord .null ['u', 'l', 'l'] rest
    | 't' :: rest => readWord (.bool true) ['r', 'u', 'e'] rest
    | 'f' :: rest => readWord (.bool false) ['a', 'l', 's', 'e'] rest
    | '-' :: rest => (readNumber true rest).map fun (n, rest) => (.number n, rest)
    | '"' :: rest => (readString 0 [] rest).map fun (s, rest) => (.string s, rest)
    | '[' :: rest =>
      match depth with
      | 0 => .error (.peeked .tooDeep ('[' :: rest))
      | depth + 1 => (readArray (readValue depth) rest).map fun (vs, rest) => (.array vs, rest)
    | '{' :: rest =>
      match depth with
      | 0 => .error (.peeked .tooDeep ('{' :: rest))
      | depth + 1 => (readObject (readValue depth) rest).map fun (pairs, rest) =>
        (.object (collectMembers pairs), rest)
    | c :: rest =>
      if c.isDigit then (readNumber false (c :: rest)).map fun (n, rest) => (.number n, rest)
      else .error (.peeked .expectedValue (c :: rest))

/-- How deep containers may be nested. -/
def maxDepth : Nat := 127

/-- Read a value and the blanks behind it, up to the end of the text. -/
def readAll (cs : List Char) : Except Fault Value :=
  match readValue maxDepth cs with
  | .error e => .error e
  | .ok (v, rest) =>
    match skipBlanks rest with
    | [] => .ok v
    | rest => .error (.peeked .trailingCharacters rest)

/-- Read a text that holds one value. -/
def readText (text : String) : Except SyntaxError Value :=
  match readAll text.toList with
  | .ok v => .ok v
  | .error fault =>
    .error (.locate fault.cause text (text.utf8ByteSize - byteCount fault.rest + fault.beyond))

end WorkflowRepair.Json
