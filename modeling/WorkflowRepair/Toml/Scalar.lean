import WorkflowRepair.Calendar.Basic
import WorkflowRepair.Toml.Value

/-!
# Numbers, dates and times

The values of a TOML text that begin with a sign or a digit, and the words that are values. A reader
gives the value at the head of a text, and the text behind it.
-/

namespace WorkflowRepair.Toml

/-! ## Digits -/

/-- Read digits, between which single underscores may stand. -/
def readDigits (isDigit : Char → Bool) : List Char → Option (List Char × List Char)
  | [] => none
  | [c] => if isDigit c then some ([c], []) else none
  | c :: '_' :: rest =>
    if isDigit c then (readDigits isDigit rest).map fun (digits, rest) => (c :: digits, rest)
    else none
  | c :: d :: rest =>
    if !isDigit c then none
    else if isDigit d then
      (readDigits isDigit (d :: rest)).map fun (digits, rest) => (c :: digits, rest)
    else some ([c], d :: rest)

/-- The number that digits write in a base. -/
def numeral (base : Nat) (digits : List Char) : Nat :=
  digits.foldl (fun n c =>
    n * base + (if c.isDigit then c.toNat - 48 else c.toLower.toNat - 87)) 0

/-- Whether a character is a hexadecimal digit. -/
def isHexDigit (c : Char) : Bool :=
  c.isDigit || ('a' ≤ c && c ≤ 'f') || ('A' ≤ c && c ≤ 'F')

/-- Take a sign off: whether it is a minus. -/
def splitSign : List Char → Bool × List Char
  | '+' :: rest => (false, rest)
  | '-' :: rest => (true, rest)
  | rest => (false, rest)

/-- Read decimal digits without leading zeros. -/
def readWhole : List Char → Option (List Char × List Char)
  | '0' :: rest => some (['0'], rest)
  | cs => readDigits Char.isDigit cs

/-! ## Integers and fractions -/

/-- Whether an integer has a place in 64 bits. -/
def fits (negative : Bool) (n : Nat) : Bool := n < Nat.pow 2 63 || (negative && n == Nat.pow 2 63)

/-- Read digits in a base that is no ten. -/
def readBased (base : Nat) (isDigit : Char → Bool) (cs : List Char) : Option (Value × List Char) :=
  match readDigits isDigit cs with
  | some (digits, rest) =>
    if fits false (numeral base digits) then some (.scalar .integer, rest) else none
  | none => none

/-- Read an integer. -/
def readInteger : List Char → Option (Value × List Char)
  | '0' :: 'x' :: rest => readBased 16 isHexDigit rest
  | '0' :: 'o' :: rest => readBased 8 (fun c => '0' ≤ c && c ≤ '7') rest
  | '0' :: 'b' :: rest => readBased 2 (fun c => c == '0' || c == '1') rest
  | cs =>
    let (negative, unsigned) := splitSign cs
    match readWhole unsigned with
    | some (digits, rest) =>
      if fits negative (numeral 10 digits) then some (.scalar .integer, rest) else none
    | none => none

/-- Read the digits behind a point, if there is one. -/
def readPoint : List Char → Option (List Char × List Char)
  | '.' :: rest => readDigits Char.isDigit rest
  | rest => some ([], rest)

/-- Read an exponent, if there is one. -/
def readExponent (cs : List Char) : Option (Int × List Char) :=
  let digits (rest : List Char) : Option (Int × List Char) :=
    let (negative, rest) := splitSign rest
    (readDigits Char.isDigit rest).map fun (digits, rest) =>
      (if negative then -(numeral 10 digits : Int) else numeral 10 digits, rest)
  match cs with
  | 'e' :: rest => digits rest
  | 'E' :: rest => digits rest
  | rest => some (0, rest)

/-- The decimal exponent of the least number that is taken to be infinite. -/
def lastExponent : Int := 308

/-- Whether `digits * 10 ^ exponent` is infinite as a binary fraction, that is, whether it is at
least halfway from the largest fraction to `2 ^ 1024`. -/
def isInfinite (digits : Nat) (exponent : Int) : Bool :=
  let leading := exponent + (Nat.toDigits 10 digits).length - 1
  if digits = 0 ∨ leading < lastExponent then false
  else if lastExponent < leading then true
  else
    let bound := Nat.pow 2 1024 - Nat.pow 2 970
    bound * Nat.pow 10 (-exponent).toNat ≤ digits * Nat.pow 10 exponent.toNat

/-- Read a fraction: digits with a point or an exponent behind them, or both. A positive number that
is infinite is refused. -/
def readFraction (cs : List Char) : Option (Value × List Char) :=
  let (negative, unsigned) := splitSign cs
  match readWhole unsigned with
  | none => none
  | some (whole, rest) =>
    match readPoint rest with
    | none => none
    | some (decimals, behind) =>
      match readExponent behind with
      | none => none
      | some (exponent, after) =>
        let digits := numeral 10 (whole ++ decimals)
        if after.length = rest.length then none
        else if !negative && isInfinite digits (exponent - decimals.length) then none
        else some (.scalar .float, after)

/-- Read the words for the values that no digits write. -/
def readSpecial (cs : List Char) : Option (Value × List Char) :=
  match (splitSign cs).2 with
  | 'i' :: 'n' :: 'f' :: rest => some (.scalar .float, rest)
  | 'n' :: 'a' :: 'n' :: rest => some (.scalar .float, rest)
  | _ => none

/-- Read a truth value. -/
def readTruth : List Char → Option (Value × List Char)
  | 't' :: 'r' :: 'u' :: 'e' :: rest => some (.scalar .boolean, rest)
  | 'f' :: 'a' :: 'l' :: 's' :: 'e' :: rest => some (.scalar .boolean, rest)
  | _ => none

/-! ## Dates and times -/

/-- The text behind a time of day. -/
def afterTime? : List Char → Option (List Char)
  | h0 :: h1 :: ':' :: m0 :: m1 :: ':' :: s0 :: s1 :: rest =>
    match Calendar.field? [h0, h1], Calendar.field? [m0, m1], Calendar.field? [s0, s1] with
    | some hour, some minute, some second =>
      if hour ≤ 23 ∧ minute ≤ 59 ∧ second ≤ 60 then
        some ((Calendar.afterFraction? rest).getD rest)
      else none
    | _, _, _ => none
  | _ => none

/-- The text behind an offset, if there is one. -/
def afterOffset (cs : List Char) : List Char :=
  if (Calendar.offset? (cs.take 1)).isSome then cs.drop 1
  else if (Calendar.offset? (cs.take 6)).isSome then cs.drop 6
  else cs

/-- The text behind a time that may follow a date. -/
def afterDate : List Char → List Char
  | c :: rest =>
    if c == 'T' || c == 't' || c == ' ' then
      match afterTime? rest with
      | some rest => afterOffset rest
      | none => c :: rest
    else c :: rest
  | [] => []

/-- Read a date, a time of day, or both. -/
def readDateTime (cs : List Char) : Option (Value × List Char) :=
  if Calendar.isDate (cs.take 10) then some (.dateTime, afterDate (cs.drop 10))
  else (afterTime? cs).map fun rest => (.dateTime, rest)

/-! ## All of them -/

/-- Read a value that is no string, array or table. -/
def readScalar (cs : List Char) : Option (Value × List Char) :=
  (readTruth cs).or ((readSpecial cs).or ((readDateTime cs).or
    ((readFraction cs).or (readInteger cs))))

end WorkflowRepair.Toml
