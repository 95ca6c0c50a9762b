import WorkflowRepair.Json.Value
import WorkflowRepair.Decimal.Shortest

/-!
# Writing JSON

Two written forms of a value: `Value.compact` without any blank, and `Value.pretty` with one member
or item to a line and two blanks for each level. Both escape only what has to be escaped.
-/

namespace WorkflowRepair.Json

/-! ## Numbers -/

/-- Fractions are written positionally from `0.00001` up to sixteen digits before the point. -/
def fractionLayout : Decimal.Layout := ⟨-5, 15⟩

/-- The text of a fraction: the shortest decimal that reads back as it. -/
def fractionText (x : Float) : List Char :=
  let bits := x.toBits
  let sign := if bits.toNat < Nat.pow 2 63 then [] else ['-']
  if bits.toNat % Nat.pow 2 63 = 0 then sign ++ ['0', '.', '0']
  else sign ++ fractionLayout.write (Decimal.Interval.ofBits bits).shortest.trim

/-- The decimal text of an integer. -/
def integerText (i : Int) : List Char :=
  if i < 0 then '-' :: Nat.toDigits 10 i.natAbs else Nat.toDigits 10 i.natAbs

/-- The text of a number. -/
def Number.text : Number → List Char
  | .integer i => integerText i
  | .float x => fractionText x

/-! ## Strings -/

/-- The lower-case hexadecimal digit of a number below sixteen. -/
def hexDigit (n : Nat) : Char :=
  if n < 10 then Char.ofNat (48 + n) else Char.ofNat (87 + n)

/-- One character inside a string: quotes, backslashes and control characters are escaped. -/
def escapeChar (c : Char) : List Char :=
  if c = '"' then ['\\', '"']
  else if c = '\\' then ['\\', '\\']
  else if c = '\x08' then ['\\', 'b']
  else if c = '\x0c' then ['\\', 'f']
  else if c = '\n' then ['\\', 'n']
  else if c = '\r' then ['\\', 'r']
  else if c = '\t' then ['\\', 't']
  else if c.toNat < 32 then ['\\', 'u', '0', '0', hexDigit (c.toNat / 16), hexDigit (c.toNat % 16)]
  else [c]

/-- A string between quotes. -/
def quoted (s : String) : List Char :=
  '"' :: (s.toList.flatMap escapeChar ++ ['"'])

/-! ## Values -/

mutual

/-- The characters of a value without any blank. -/
def Value.compactChars : Value → List Char
  | .null => ['n', 'u', 'l', 'l']
  | .bool true => ['t', 'r', 'u', 'e']
  | .bool false => ['f', 'a', 'l', 's', 'e']
  | .number n => n.text
  | .string s => quoted s
  | .array items => '[' :: compactItems items
  | .object members => '{' :: compactMembers members

/-- The items of an array and its closing bracket. -/
def compactItems : List Value → List Char
  | [] => [']']
  | [v] => v.compactChars ++ [']']
  | v :: rest => v.compactChars ++ ',' :: compactItems rest

/-- The members of an object and its closing brace. -/
def compactMembers : List (String × Value) → List Char
  | [] => ['}']
  | [(k, v)] => quoted k ++ ':' :: (v.compactChars ++ ['}'])
  | (k, v) :: rest => quoted k ++ ':' :: (v.compactChars ++ ',' :: compactMembers rest)

end

/-- A line break and the blanks of a nesting level. -/
def newline (level : Nat) : List Char := '\n' :: List.replicate (2 * level) ' '

mutual

/-- The characters of a value that stands at nesting level `level`. -/
def Value.prettyChars (level : Nat) : Value → List Char
  | .null => ['n', 'u', 'l', 'l']
  | .bool true => ['t', 'r', 'u', 'e']
  | .bool false => ['f', 'a', 'l', 's', 'e']
  | .number n => n.text
  | .string s => quoted s
  | .array [] => ['[', ']']
  | .array (v :: rest) =>
    '[' :: (newline (level + 1) ++ (v.prettyChars (level + 1) ++ prettyItems level rest))
  | .object [] => ['{', '}']
  | .object ((k, v) :: rest) =>
    '{' :: (newline (level + 1) ++
      (quoted k ++ ':' :: ' ' :: (v.prettyChars (level + 1) ++ prettyMembers level rest)))

/-- The items after the first, each behind a comma on a line of its own, and the closing bracket. -/
def prettyItems (level : Nat) : List Value → List Char
  | [] => newline level ++ [']']
  | v :: rest =>
    ',' :: (newline (level + 1) ++ (v.prettyChars (level + 1) ++ prettyItems level rest))

/-- The members after the first, each behind a comma on a line of its own, and the closing brace. -/
def prettyMembers (level : Nat) : List (String × Value) → List Char
  | [] => newline level ++ ['}']
  | (k, v) :: rest =>
    ',' :: (newline (level + 1) ++
      (quoted k ++ ':' :: ' ' :: (v.prettyChars (level + 1) ++ prettyMembers level rest)))

end

/-- The value on one line, without blanks. -/
def Value.compact (v : Value) : String := String.ofList v.compactChars

/-- The value spread over lines. -/
def Value.pretty (v : Value) : String := String.ofList (v.prettyChars 0)

end WorkflowRepair.Json
