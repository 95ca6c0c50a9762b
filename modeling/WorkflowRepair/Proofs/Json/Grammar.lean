import Mathlib.Data.Rat.Defs
import WorkflowRepair.Json.Reader

/-!
# The grammar

What a text says, apart from how it is read. A `Source` is the tree of a text: strings are decoded,
numbers stand as they are written (`Literal`), and an object has a pair for every member written.
`Spells depth source text` says that the text writes the tree with containers nested at most `depth`
levels deep, and `Source.value?` is the value that is held for it.
-/

namespace WorkflowRepair.Json

/-! ## Blanks -/

/-- Nothing but blanks. -/
def Blank (cs : List Char) : Prop := ∀ c ∈ cs, isBlank c = true

/-! ## Numbers -/

/-- A run of decimal digits. -/
structure Digits where
  chars : List Char
  ne_nil : chars ≠ []
  isDigit : ∀ c ∈ chars, c.isDigit = true

/-- The number that digits write. -/
def Digits.value (digits : Digits) : Nat := Nat.ofDigitChars 10 digits.chars 0

/-- The exponent of a number as it is written. -/
structure Exponent where
  letter : Char
  isLetter : letter = 'e' ∨ letter = 'E'
  sign : Option Char
  isSign : ∀ c ∈ sign, c = '+' ∨ c = '-'
  digits : Digits

namespace Exponent

/-- The text behind the letter. -/
def signed (e : Exponent) : List Char := e.sign.toList ++ e.digits.chars

/-- The text of an exponent. -/
def text (e : Exponent) : List Char := e.letter :: e.signed

/-- The power of ten that an exponent raises to. -/
def value (e : Exponent) : Int := if e.sign = some '-' then -e.digits.value else e.digits.value

end Exponent

/-- A number as it is written. -/
structure Literal where
  negative : Bool
  whole : Digits
  noLeadingZero : whole.chars.head? = some '0' → whole.chars = ['0']
  decimals : Option Digits
  exponent : Option Exponent

/-- Decimals behind their point. -/
def pointText : Option Digits → List Char
  | none => []
  | some digits => '.' :: digits.chars

/-- An exponent behind its letter, if there is one. -/
def exponentText : Option Exponent → List Char
  | none => []
  | some e => e.text

namespace Literal

/-- The text behind the sign. -/
def unsigned (l : Literal) : List Char :=
  l.whole.chars ++ (pointText l.decimals ++ exponentText l.exponent)

/-- The text of a number. -/
def text (l : Literal) : List Char := if l.negative then '-' :: l.unsigned else l.unsigned

/-- The digits in front of the point and behind it. -/
def allDigits (l : Literal) : List Char :=
  l.whole.chars ++ (l.decimals.map Digits.chars).getD []

/-- The power of ten by which the digits are multiplied if they are taken for whole. -/
def scale (l : Literal) : Int :=
  (l.exponent.map Exponent.value).getD 0 - ((l.decimals.map Digits.chars).getD []).length

/-- The number that a literal denotes. -/
def value (l : Literal) : ℚ :=
  (if l.negative then -1 else 1) * (Nat.ofDigitChars 10 l.allDigits 0 * 10 ^ l.scale)

/-- The integer that an integer literal writes: a sign and digits, and neither a point nor an
exponent. -/
def integer? (l : Literal) : Option Int :=
  if l.decimals.isNone && l.exponent.isNone then
    some (if l.negative then -l.whole.value else l.whole.value)
  else none

/-- The number that is held for a literal, none if it is refused. -/
def number? (l : Literal) : Option Number :=
  match readNumber l.negative l.unsigned with
  | .ok (n, _) => some n
  | .error _ => none

end Literal

/-! ## Strings -/

/-- Sixteen bits that belong to a pair and are no character on their own. -/
def IsSurrogate (n : Nat) : Prop := 0xD800 ≤ n ∧ n ≤ 0xDFFF

/-- What may stand behind a backslash for a character. -/
inductive Escape : Char → List Char → Prop
  | quote : Escape '"' ['"']
  | backslash : Escape '\\' ['\\']
  | slash : Escape '/' ['/']
  | backspace : Escape '\x08' ['b']
  | formFeed : Escape '\x0c' ['f']
  | newline : Escape '\n' ['n']
  | return : Escape '\r' ['r']
  | tab : Escape '\t' ['t']
  /-- Four hexadecimal digits. -/
  | unit {a b c d : Char} {n : Nat} (hquad : hexQuad? [a, b, c, d] = some n) (h : ¬ IsSurrogate n) :
      Escape (Char.ofNat n) ['u', a, b, c, d]
  /-- Four hexadecimal digits for each half of a pair. -/
  | pair {a b c d a' b' c' d' : Char} {lead trail : Nat}
      (hlead : hexQuad? [a, b, c, d] = some lead) (htrail : hexQuad? [a', b', c', d'] = some trail)
      (hleads : 0xD800 ≤ lead ∧ lead ≤ 0xDBFF) (htrails : 0xDC00 ≤ trail ∧ trail ≤ 0xDFFF) :
      Escape (Char.ofNat (0x10000 + (lead - 0xD800) * 0x400 + (trail - 0xDC00)))
        ['u', a, b, c, d, '\\', 'u', a', b', c', d']

/-- The inside of a string with its closing quote, and the characters that it stands for. -/
inductive Quoted : List Char → List Char → Prop
  | close : Quoted [] ['"']
  | plain {c : Char} {chars text : List Char} (hquote : c ≠ '"') (hbackslash : c ≠ '\\')
      (hcontrol : 32 ≤ c.toNat) (h : Quoted chars text) : Quoted (c :: chars) (c :: text)
  | escape {c : Char} {escaped chars text : List Char} (hescape : Escape c escaped)
      (h : Quoted chars text) : Quoted (c :: chars) ('\\' :: (escaped ++ text))

/-! ## Containers -/

/-- Items or members, of which `P` says how one is written, with commas between them and the closing
bracket behind them. -/
inductive Separated {α : Type} (P : α → List Char → Prop) (close : Char) :
    List α → List Char → Prop
  | last {a : α} {text blanks : List Char} (h : P a text) (hblanks : Blank blanks) :
      Separated P close [a] (text ++ (blanks ++ [close]))
  | more {a : α} {rest : List α} {text front back others : List Char} (h : P a text)
      (hfront : Blank front) (hback : Blank back) (hrest : Separated P close rest others) :
      Separated P close (a :: rest) (text ++ (front ++ ',' :: (back ++ others)))

/-- Items or members between their brackets. -/
inductive Enclosed {α : Type} (P : α → List Char → Prop) (opening close : Char) :
    List α → List Char → Prop
  | empty {blanks : List Char} (hblanks : Blank blanks) :
      Enclosed P opening close [] (opening :: (blanks ++ [close]))
  | filled {items : List α} {blanks text : List Char} (hblanks : Blank blanks)
      (h : Separated P close items text) : Enclosed P opening close items (opening :: (blanks ++ text))

/-! ## Trees -/

/-- The tree of a text. -/
inductive Source where
  | null
  | bool (value : Bool)
  | number (literal : Literal)
  | string (value : String)
  | array (items : List Source)
  | object (members : List (String × Source))

/-- The text of a member, of which `P` says how its value is written. -/
inductive SpellsMember (P : Source → List Char → Prop) : String × Source → List Char → Prop
  | mk {key : String} {source : Source} {quoted front back text : List Char}
      (hkey : Quoted key.toList quoted) (hfront : Blank front) (hback : Blank back)
      (h : P source text) :
      SpellsMember P (key, source) ('"' :: (quoted ++ (front ++ ':' :: (back ++ text))))

/-- How a tree is written with containers nested at most `depth` levels deep. -/
def Spells : (depth : Nat) → Source → List Char → Prop
  | _, .null, text => text = ['n', 'u', 'l', 'l']
  | _, .bool true, text => text = ['t', 'r', 'u', 'e']
  | _, .bool false, text => text = ['f', 'a', 'l', 's', 'e']
  | _, .number l, text => text = l.text
  | _, .string s, text => ∃ quoted, Quoted s.toList quoted ∧ text = '"' :: quoted
  | depth + 1, .array items, text => Enclosed (Spells depth) '[' ']' items text
  | depth + 1, .object members, text => Enclosed (SpellsMember (Spells depth)) '{' '}' members text
  | 0, .array _, _ => False
  | 0, .object _, _ => False

theorem spells_array {depth : Nat} {items : List Source} {text : List Char} :
    Spells depth (.array items) text ↔
      ∃ inner, depth = inner + 1 ∧ Enclosed (Spells inner) '[' ']' items text := by
  cases depth <;> simp [Spells]

theorem spells_object {depth : Nat} {members : List (String × Source)} {text : List Char} :
    Spells depth (.object members) text ↔
      ∃ inner, depth = inner + 1 ∧
        Enclosed (SpellsMember (Spells inner)) '{' '}' members text := by
  cases depth <;> simp [Spells]

/-- A whole text that writes a tree, with blanks around it. -/
def SpellsText (source : Source) (text : String) : Prop :=
  ∃ front core back, Blank front ∧ Spells maxDepth source core ∧ Blank back ∧
    text.toList = front ++ (core ++ back)

mutual

/-- The value that is held for a tree, none if one of its numbers is refused. -/
def Source.value? : Source → Option Value
  | .null => some .null
  | .bool b => some (.bool b)
  | .number l => l.number?.map .number
  | .string s => some (.string s)
  | .array items => (itemValues? items).map .array
  | .object members => (memberValues? members).map fun pairs => .object (collectMembers pairs)

/-- The values that are held for items. -/
def itemValues? : List Source → Option (List Value)
  | [] => some []
  | source :: rest =>
    match source.value?, itemValues? rest with
    | some v, some vs => some (v :: vs)
    | _, _ => none

/-- The pairs that are held for members. -/
def memberValues? : List (String × Source) → Option (List (String × Value))
  | [] => some []
  | (key, source) :: rest =>
    match source.value?, memberValues? rest with
    | some v, some pairs => some ((key, v) :: pairs)
    | _, _ => none

end

/-! ## Positions -/

/-- One step from a container to a value in it. -/
inductive Step where
  | item (index : Nat)
  | member (key : String)
deriving DecidableEq, Repr

/-- The value at a position. -/
def Value.at? : List Step → Value → Option Value
  | [], v => some v
  | .item index :: path, .array items => items[index]?.bind (Value.at? path)
  | .member key :: path, .object members => (Members.get? key members).bind (Value.at? path)
  | _ :: _, _ => none

/-- The last of the members written under a key, which is the one that counts. -/
def lastUnder? (key : String) : List (String × Source) → Option Source
  | [] => none
  | (k, source) :: rest => (lastUnder? key rest).or (if k = key then some source else none)

/-- The tree at a position. -/
def Source.at? : List Step → Source → Option Source
  | [], source => some source
  | .item index :: path, .array items => items[index]?.bind (Source.at? path)
  | .member key :: path, .object members => (lastUnder? key members).bind (Source.at? path)
  | _ :: _, _ => none

end WorkflowRepair.Json
