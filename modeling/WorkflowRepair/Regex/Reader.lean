import WorkflowRepair.Regex.Basic

/-!
# Reading regular expressions

`Expression.read` reads the text of an expression, none if it is malformed or uses what no schema
may use: flags, references to groups, and named properties of characters. `shown` is the text of an
expression as messages show it.
-/

namespace WorkflowRepair.Regex

/-! ## Sets with a name of their own -/

/-- One character as a set. -/
def CharSet.single (c : Char) : CharSet := .range c c

/-- The last character of all. -/
def lastChar : Char := Char.ofNat 0x10FFFF

/-- No character. -/
def CharSet.none : CharSet := .union []

/-- The decimal digits. -/
def digits : CharSet := .range '0' '9'

/-- Letters, digits and the underscore. -/
def wordChars : CharSet := .union [.range 'A' 'Z', .range 'a' 'z', digits, .single '_']

/-- The characters that count as blank in an expression. -/
def blanks : CharSet :=
  .union <| [' ', '\t', '\n', '\r', '\x0b', '\x0c', '\u00a0', '\ufeff', '\u2003', '\u2029'].map
    .single

/-- The set that a letter behind a backslash names. -/
def namedSet? : Char → Option CharSet
  | 'd' => some digits
  | 'D' => some (.complement digits)
  | 'w' => some wordChars
  | 'W' => some (.complement wordChars)
  | 's' => some blanks
  | 'S' => some (.complement blanks)
  | _ => none

/-- The brackets that stand for a letter behind a backslash in messages. -/
def namedText? : Char → Option String
  | 'd' => some "[0-9]"
  | 'D' => some "[^0-9]"
  | 'w' => some "[A-Za-z0-9_]"
  | 'W' => some "[^A-Za-z0-9_]"
  | 's' => some "[ \t\n\r\x0b\x0c\u00a0\ufeff\u2003\u2029]"
  | 'S' => some "[^ \t\n\r\x0b\x0c\u00a0\ufeff\u2003\u2029]"
  | _ => none

/-- The set that a name between `[:` and `:]` names. -/
def listedSet? : List Char → Option CharSet
  | ['a', 'l', 'n', 'u', 'm'] => some (.union [.range '0' '9', .range 'A' 'Z', .range 'a' 'z'])
  | ['a', 'l', 'p', 'h', 'a'] => some (.union [.range 'A' 'Z', .range 'a' 'z'])
  | ['a', 's', 'c', 'i', 'i'] => some (.range '\x00' '\x7f')
  | ['b', 'l', 'a', 'n', 'k'] => some (.union [.single ' ', .single '\t'])
  | ['c', 'n', 't', 'r', 'l'] => some (.union [.range '\x00' '\x1f', .single '\x7f'])
  | ['d', 'i', 'g', 'i', 't'] => some digits
  | ['g', 'r', 'a', 'p', 'h'] => some (.range '!' '~')
  | ['l', 'o', 'w', 'e', 'r'] => some (.range 'a' 'z')
  | ['p', 'r', 'i', 'n', 't'] => some (.range ' ' '~')
  | ['p', 'u', 'n', 'c', 't'] =>
    some (.union [.range '!' '/', .range ':' '@', .range '[' (Char.ofNat 96),
      .range (Char.ofNat 123) '~'])
  | ['s', 'p', 'a', 'c', 'e'] => some (.union [.range '\t' '\r', .single ' '])
  | ['u', 'p', 'p', 'e', 'r'] => some (.range 'A' 'Z')
  | ['w', 'o', 'r', 'd'] => some wordChars
  | ['x', 'd', 'i', 'g', 'i', 't'] =>
    some (.union [digits, .range 'A' 'F', .range 'a' 'f'])
  | _ => none

/-! ## Single characters -/

/-- The value of a hexadecimal digit. -/
def hexValue? (c : Char) : Option Nat :=
  if c.isDigit then some (c.toNat - 48)
  else if 'a'.toNat ≤ c.toNat ∧ c.toNat ≤ 'f'.toNat then some (c.toNat - 87)
  else if 'A'.toNat ≤ c.toNat ∧ c.toNat ≤ 'F'.toNat then some (c.toNat - 55)
  else none

/-- The character that hexadecimal digits number. -/
def charOfHex? (cs : List Char) : Option Char :=
  if cs.isEmpty then none
  else (cs.mapM hexValue?).bind fun values =>
    let n := values.foldl (fun n d => n * 16 + d) 0
    if n.isValidChar then some (Char.ofNat n) else none

/-- A character by its number: between braces, or with exactly `width` digits. -/
def readNumbered (width : Nat) : List Char → Option (Char × List Char)
  | '{' :: rest =>
    match rest.dropWhile (· != '}') with
    | '}' :: after => (charOfHex? (rest.takeWhile (· != '}'))).map (·, after)
    | _ => none
  | cs =>
    if cs.length < width then none
    else (charOfHex? (cs.take width)).map (·, cs.drop width)

/-- A character behind a backslash that stands for one character. -/
def readEscaped : List Char → Option (Char × List Char)
  | 'n' :: rest => some ('\n', rest)
  | 'r' :: rest => some ('\r', rest)
  | 't' :: rest => some ('\t', rest)
  | 'f' :: rest => some ('\x0c', rest)
  | 'v' :: rest => some ('\x0b', rest)
  | 'a' :: rest => some ('\x07', rest)
  | 'x' :: rest => readNumbered 2 rest
  | 'u' :: rest => readNumbered 4 rest
  | 'U' :: rest => readNumbered 8 rest
  | 'c' :: letter :: rest =>
    if letter.isAlpha then some (Char.ofNat (letter.toNat % 32), rest) else none
  | c :: rest =>
    if c.toNat < 128 && !c.isAlphanum && c != '<' && c != '>' then some (c, rest) else none
  | [] => none

/-! ## Sets between brackets -/

/-- How two sets between the same brackets are combined. -/
inductive Operation where
  | intersection
  | difference
  | symmetricDifference

/-- The combination of two sets. -/
def Operation.apply (a b : CharSet) : Operation → CharSet
  | .intersection => .intersection a b
  | .difference => .intersection a (.complement b)
  | .symmetricDifference =>
    .union [.intersection a (.complement b), .intersection b (.complement a)]

/-- What has been read of a set between brackets: the combination of what stands before the last
operation, that operation, and the items behind it. -/
structure SetDraft where
  combined : Option (CharSet × Operation) := none
  items : List CharSet := []

/-- One more item. -/
def SetDraft.push (set : CharSet) (draft : SetDraft) : SetDraft :=
  { draft with items := set :: draft.items }

/-- The set read so far. -/
def SetDraft.finish (draft : SetDraft) : CharSet :=
  match draft.combined with
  | none => .union draft.items
  | some (set, operation) => operation.apply set (.union draft.items)

/-- What is read so far becomes the left side of an operation. -/
def SetDraft.operate (operation : Operation) (draft : SetDraft) : SetDraft :=
  { combined := some (draft.finish, operation) }

/-- A character or a named set between brackets. -/
def readSetItem : List Char → Option ((Char ⊕ CharSet) × List Char)
  | '\\' :: c :: rest =>
    match namedSet? c with
    | some set => some (.inr set, rest)
    | none => (readEscaped (c :: rest)).map fun (c, rest) => (.inl c, rest)
  | ['\\'] => none
  | c :: rest => some (.inl c, rest)
  | [] => none

/-- An item between brackets, or a range of characters. -/
def readRange (cs : List Char) : Option (CharSet × List Char) :=
  match readSetItem cs with
  | none => none
  | some (first, rest) =>
    let alone : CharSet × List Char := match first with
      | .inl c => (.single c, rest)
      | .inr set => (set, rest)
    match rest with
    | '-' :: ']' :: _ => some alone
    | '-' :: '-' :: _ => some alone
    | '-' :: behind =>
      match first, readSetItem behind with
      | .inl first, some (.inl last, rest) =>
        if first.toNat ≤ last.toNat then some (.range first last, rest) else none
      | _, _ => none
    | _ => some alone

/-- A name between `[:` and `:]`, which may be negated. -/
def readListed (cs : List Char) : Option (CharSet × List Char) :=
  let (negated, cs) := match cs with
    | '^' :: rest => (true, rest)
    | _ => (false, cs)
  match cs.dropWhile (·.isAlpha) with
  | ':' :: ']' :: rest =>
    (listedSet? (cs.takeWhile (·.isAlpha))).map fun set =>
      (if negated then .complement set else set, rest)
  | _ => none

/-- What follows an opening bracket: a negation, and hyphens or a closing bracket that stand for
themselves. -/
def openSet (cs : List Char) : Bool × SetDraft × List Char :=
  let (negated, cs) := match cs with
    | '^' :: rest => (true, rest)
    | _ => (false, cs)
  let hyphens := cs.takeWhile (· == '-')
  let draft : SetDraft := { items := hyphens.map .single }
  match hyphens, cs.dropWhile (· == '-') with
  | [], ']' :: rest => (negated, draft.push (.single ']'), rest)
  | _, rest => (negated, draft, rest)

/-- Read the rest of a set up to its closing bracket. -/
def readSet : (fuel : Nat) → (negated : Bool) → SetDraft → List Char →
    Option (CharSet × List Char)
  | 0, _, _, _ => none
  | _, _, _, [] => none
  | fuel + 1, negated, draft, c :: rest =>
    match c, rest with
    | ']', rest =>
      some (if negated then .complement draft.finish else draft.finish, rest)
    | '&', '&' :: rest => readSet fuel negated (draft.operate .intersection) rest
    | '-', '-' :: rest => readSet fuel negated (draft.operate .difference) rest
    | '~', '~' :: rest => readSet fuel negated (draft.operate .symmetricDifference) rest
    | '[', rest =>
      let nested : Option (CharSet × List Char) :=
        let (inner, opened, behind) := openSet rest
        readSet fuel inner opened behind
      let item := match rest with
        | ':' :: named => (readListed named).or nested
        | _ => nested
      match item with
      | some (set, rest) => readSet fuel negated (draft.push set) rest
      | none => none
    | c, rest =>
      match readRange (c :: rest) with
      | some (set, rest) => readSet fuel negated (draft.push set) rest
      | none => none

/-! ## Expressions -/

/-- The number at the head of a text, and the text behind it. -/
def readCount (cs : List Char) : Option Nat × List Char :=
  let digits := cs.takeWhile Char.isDigit
  (if digits.isEmpty then none
    else some (digits.foldl (fun n c => n * 10 + (c.toNat - 48)) 0), cs.drop digits.length)

/-- The bounds of a repetition between braces. -/
def readBounds (cs : List Char) : Option ((Nat × Option Nat) × List Char) :=
  match readCount cs with
  | (some n, '}' :: rest) => some ((n, some n), rest)
  | (least, ',' :: rest) =>
    match least, readCount rest with
    | some least, (none, '}' :: rest) => some ((least, none), rest)
    | least, (some most, '}' :: rest) =>
      if least.getD 0 ≤ most then some ((least.getD 0, some most), rest) else none
    | _, _ => none
  | _ => none

/-- The repetition at the head of a text: its bounds, and the text behind it. None inside if the
text begins with no repetition. -/
def readRepetition : List Char → Option (Option (Nat × Option Nat) × List Char)
  | '*' :: rest => some (some (0, none), rest)
  | '+' :: rest => some (some (1, none), rest)
  | '?' :: rest => some (some (0, some 1), rest)
  | '{' :: rest => (readBounds rest).map fun (bounds, rest) => (some bounds, rest)
  | rest => some (none, rest)

/-- Read the repetitions behind an expression. -/
def readRepetitions : (fuel : Nat) → Expression → List Char → Option (Expression × List Char)
  | 0, _, _ => none
  | fuel + 1, e, cs =>
    match readRepetition cs with
    | none => none
    | some (none, rest) => some (e, rest)
    | some (some (least, most), '?' :: rest) =>
      readRepetitions fuel (.repetition e least most false) rest
    | some (some (least, most), rest) => readRepetitions fuel (.repetition e least most true) rest

/-- How a group uses what is inside it, and the text inside. None if the group is of a kind that is
not read. -/
def readGroupKind : List Char → Option ((Expression → Expression) × List Char)
  | '?' :: ':' :: rest => some (id, rest)
  | '?' :: '=' :: rest => some ((.ahead · true), rest)
  | '?' :: '!' :: rest => some ((.ahead · false), rest)
  | '?' :: '<' :: '=' :: rest => some ((.behind · true), rest)
  | '?' :: '<' :: '!' :: rest => some ((.behind · false), rest)
  | '?' :: '>' :: rest => some (.atomic, rest)
  | '?' :: 'P' :: '<' :: rest => named rest
  | '?' :: '<' :: rest => named rest
  | '?' :: _ => none
  | rest => some (id, rest)
where
  /-- The text behind the name of a group. -/
  named (cs : List Char) : Option ((Expression → Expression) × List Char) :=
    let isNameChar (c : Char) : Bool := c.isAlphanum || c == '_'
    match cs.takeWhile isNameChar, cs.dropWhile isNameChar with
    | first :: _, '>' :: rest => if first.isDigit then none else some (id, rest)
    | _, _ => none

/-- Read one part of an expression that is no group. -/
def readAtom : List Char → Option (Expression × List Char)
  | [] => none
  | '.' :: rest => some (.character (.complement (.single '\n')), rest)
  | '^' :: rest => some (.anchor .start, rest)
  | '$' :: rest => some (.anchor .finish, rest)
  | '[' :: rest =>
    let (negated, draft, inside) := openSet rest
    (readSet (rest.length + 1) negated draft inside).map fun (set, rest) => (.character set, rest)
  | '\\' :: 'b' :: rest => some (.anchor (.boundary true), rest)
  | '\\' :: 'B' :: rest => some (.anchor (.boundary false), rest)
  | '\\' :: 'A' :: rest => some (.anchor .start, rest)
  | '\\' :: 'z' :: rest => some (.anchor .finish, rest)
  | '\\' :: c :: rest =>
    match namedSet? c with
    | some set => some (.character set, rest)
    | none => (readEscaped (c :: rest)).map fun (c, rest) => (.character (.single c), rest)
  | ['\\'] => none
  | '*' :: _ => none
  | '+' :: _ => none
  | '?' :: _ => none
  | '{' :: _ => none
  | c :: rest => some (.character (.single c), rest)

/-- Read alternatives up to the end of the text or a closing parenthesis, which stays. `done` holds
the alternatives before the present one, and `current` what is read of it. -/
def readAlternatives : (fuel : Nat) → (done : Option Expression) → (current : Expression) →
    List Char → Option (Expression × List Char)
  | 0, _, _, _ => none
  | fuel + 1, done, current, cs =>
    let closed : Expression := match done with
      | some done => .choice done current
      | none => current
    match cs with
    | [] => some (closed, [])
    | ')' :: rest => some (closed, ')' :: rest)
    | '|' :: rest => readAlternatives fuel (some closed) .empty rest
    | '(' :: rest =>
      match readGroupKind rest with
      | none => none
      | some (wrap, inside) =>
        match readAlternatives fuel none .empty inside with
        | some (inner, ')' :: rest) =>
          match readRepetitions (rest.length + 1) (wrap inner) rest with
          | some (e, rest) => readAlternatives fuel done (.sequence current e) rest
          | none => none
        | _ => none
    | cs =>
      match readAtom cs with
      | none => none
      | some (e, rest) =>
        match readRepetitions (rest.length + 1) e rest with
        | some (e, rest) => readAlternatives fuel done (.sequence current e) rest
        | none => none

/-- Read an expression. -/
def Expression.read (text : String) : Option Expression :=
  match readAlternatives (text.length + 1) none .empty text.toList with
  | some (e, []) => some e
  | _ => none

/-! ## Showing expressions -/

/-- Whether an expression asks for what stands ahead or behind. -/
def looksAround : List Char → Bool
  | [] => false
  | '\\' :: _ :: rest => looksAround rest
  | '(' :: '?' :: '=' :: _ => true
  | '(' :: '?' :: '!' :: _ => true
  | '(' :: '?' :: '<' :: '=' :: _ => true
  | '(' :: '?' :: '<' :: '!' :: _ => true
  | _ :: rest => looksAround rest

/-- The text of an expression with brackets in place of the letters that name sets. -/
def spellOut : List Char → List Char
  | [] => []
  | '\\' :: 'c' :: letter :: rest => Char.ofNat (letter.toNat % 32) :: spellOut rest
  | '\\' :: c :: rest =>
    match namedText? c with
    | some text => text.toList ++ spellOut rest
    | none => '\\' :: c :: spellOut rest
  | c :: rest => c :: spellOut rest

/-- An expression as messages show it. One that looks around is shown as it is written. -/
def shown (text : String) : String :=
  if looksAround text.toList then text else String.ofList (spellOut text.toList)

end WorkflowRepair.Regex
