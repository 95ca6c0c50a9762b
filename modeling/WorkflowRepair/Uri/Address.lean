/-!
# Network addresses and host names
-/

namespace WorkflowRepair.Uri

/-- Cut a text at every occurrence of a character. -/
def splitAt (stop : Char) : List Char → List (List Char)
  | [] => [[]]
  | c :: rest =>
    if c = stop then [] :: splitAt stop rest
    else match splitAt stop rest with
      | [] => [[c]]
      | piece :: others => (c :: piece) :: others

/-- Whether a character is a hexadecimal digit. -/
def isHexDigit (c : Char) : Bool :=
  c.isDigit || ('a' ≤ c && c ≤ 'f') || ('A' ≤ c && c ≤ 'F')

/-- The number that decimal digits write. -/
def decimal (cs : List Char) : Nat := cs.foldl (fun n c => n * 10 + (c.toNat - 48)) 0

/-- Whether a text is a number below 256 without leading zeros. -/
def isOctet (cs : List Char) : Bool :=
  !cs.isEmpty && cs.length ≤ 3 && cs.all Char.isDigit && decimal cs ≤ 255 &&
    (cs.length == 1 || cs.head? != some '0')

/-- Whether a text is an address of four octets. -/
def isIPv4 (cs : List Char) : Bool :=
  let octets := splitAt '.' cs
  octets.length == 4 && octets.all isOctet

/-- Whether a text is a group of an address of eight groups. -/
def isGroup (cs : List Char) : Bool := !cs.isEmpty && cs.length ≤ 4 && cs.all isHexDigit

/-- The number of groups that pieces between colons stand for; four octets at the end stand for two
groups if `embedded` allows them. None if some piece is no group. -/
def groupCount? (embedded : Bool) : List (List Char) → Option Nat
  | [] => some 0
  | [last] =>
    if isGroup last then some 1 else if embedded && isIPv4 last then some 2 else none
  | piece :: rest => if isGroup piece then (groupCount? embedded rest).map (· + 1) else none

/-- The pieces of a text between colons, none of an empty text. -/
def groups (cs : List Char) : List (List Char) := if cs.isEmpty then [] else splitAt ':' cs

/-- The texts before and behind the first two colons in a row. -/
def splitGap? : List Char → Option (List Char × List Char)
  | ':' :: ':' :: rest => some ([], rest)
  | c :: rest => (splitGap? rest).map fun (before, behind) => (c :: before, behind)
  | [] => none

/-- Whether a text is an address of eight groups, of which two colons may leave out some. -/
def isIPv6 (cs : List Char) : Bool :=
  match splitGap? cs with
  | none => groupCount? true (groups cs) == some 8
  | some (before, behind) =>
    match groupCount? false (groups before), groupCount? true (groups behind) with
    | some n, some k => n + k ≤ 7
    | _, _ => false

/-- Whether a text is a label of a host name. Hyphens in the third and fourth place mark an encoded
label. -/
def isHostLabel (isLetter : Char → Bool) (cs : List Char) : Bool :=
  !cs.isEmpty && cs.length ≤ 63 && cs.head? != some '-' && cs.getLast? != some '-' &&
    cs.all (fun c => c.isAlphanum || c == '-' || isLetter c) &&
    ((cs.drop 2).take 2 != ['-', '-'] || (cs.take 2).map Char.toLower == ['x', 'n'])

/-- Whether a text is a host name: labels between dots, at most 253 characters. -/
def isHostName (isLetter : Char → Bool) (cs : List Char) : Bool :=
  cs.length ≤ 253 && (splitAt '.' cs).all (isHostLabel isLetter)

/-- Whether a text is a host name of ASCII characters. -/
def isHost (cs : List Char) : Bool := isHostName (fun _ => false) cs

/-- Whether a text is a host name, which may hold letters of any script. -/
def isInternationalHost (cs : List Char) : Bool := isHostName (fun c => 128 ≤ c.toNat) cs

end WorkflowRepair.Uri
