import WorkflowRepair.Calendar.Basic
import WorkflowRepair.Regex.Reader
import WorkflowRepair.Text.Lossy
import WorkflowRepair.Uri.Grammar

/-!
# Formats

The formats that a contract may ask a string to have.
-/

namespace WorkflowRepair.Contract

/-- A format. -/
inductive Format where
  | date
  | time
  | dateTime
  | duration
  | email
  | internationalEmail
  | hostname
  | internationalHostname
  | ipv4
  | ipv6
  | uri
  | uriReference
  | iri
  | iriReference
  | uriTemplate
  | uuid
  | jsonPointer
  | relativeJsonPointer
  | regex
deriving DecidableEq, Repr

namespace Format

/-- The format of a name; other names ask for nothing. -/
def ofName? : String → Option Format
  | "date" => some .date
  | "time" => some .time
  | "date-time" => some .dateTime
  | "duration" => some .duration
  | "email" => some .email
  | "idn-email" => some .internationalEmail
  | "hostname" => some .hostname
  | "idn-hostname" => some .internationalHostname
  | "ipv4" => some .ipv4
  | "ipv6" => some .ipv6
  | "uri" => some .uri
  | "uri-reference" => some .uriReference
  | "iri" => some .iri
  | "iri-reference" => some .iriReference
  | "uri-template" => some .uriTemplate
  | "uuid" => some .uuid
  | "json-pointer" => some .jsonPointer
  | "relative-json-pointer" => some .relativeJsonPointer
  | "regex" => some .regex
  | _ => none

/-! ## Mail addresses -/

/-- Whether a character may stand in an unquoted mailbox name. -/
def isMailboxChar (c : Char) : Bool :=
  c.isAlphanum || 128 ≤ c.toNat ||
    ['!', '#', '$', '%', '&', '\'', '*', '+', '-', '/', '=', '?', '^', '_', Char.ofNat 96, '{',
      '|', '}', '~'].contains c

/-- Whether a text stands for itself between quotes: quotes and backslashes need a backslash. -/
def isQuotedMailbox : List Char → Bool
  | [] => true
  | '\\' :: c :: rest => (c == ' ' || c == '\t' || 0x20 < c.toNat) && isQuotedMailbox rest
  | c :: rest =>
    c != '"' && c != '\\' && (c == '\t' || 0x20 ≤ c.toNat) && c.toNat != 127 &&
      isQuotedMailbox rest

/-- Whether a text is the name of a mailbox. -/
def isMailbox (cs : List Char) : Bool :=
  match cs with
  | '"' :: rest =>
    rest.getLast? == some '"' && 1 < rest.length && isQuotedMailbox rest.dropLast
  | _ => (Uri.splitAt '.' cs).all fun atom => !atom.isEmpty && atom.all isMailboxChar

/-- Whether a text is the domain of a mail address: a host, or a network address in brackets. -/
def isMailDomain (isHost : List Char → Bool) (cs : List Char) : Bool :=
  match cs with
  | '[' :: rest =>
    rest.getLast? == some ']' &&
      match rest.dropLast with
      | 'I' :: 'P' :: 'v' :: '6' :: ':' :: address => Uri.isIPv6 address
      | address => Uri.isIPv4 address
  | _ => isHost cs

/-- Whether a text is a mail address: the last at sign stands before the domain. -/
def isMail (isHost : List Char → Bool) (cs : List Char) : Bool :=
  let domain := (cs.reverse.takeWhile (· != '@')).reverse
  let mailbox := cs.take (cs.length - domain.length - 1)
  cs.contains '@' && (Text.encode (String.ofList mailbox)).length ≤ 64 && isMailbox mailbox &&
    isMailDomain isHost domain

/-! ## Identifiers and pointers -/

/-- Whether a text is five groups of hexadecimal digits between hyphens. -/
def isUuid (cs : List Char) : Bool :=
  let groups := Uri.splitAt '-' cs
  groups.map List.length == [8, 4, 4, 4, 12] && groups.all fun group => group.all Uri.isHexDigit

/-- Whether every tilde has a zero or a one behind it. -/
def hasPlainTildes : List Char → Bool
  | [] => true
  | '~' :: c :: rest => (c == '0' || c == '1') && hasPlainTildes rest
  | ['~'] => false
  | _ :: rest => hasPlainTildes rest

/-- Whether a text is a pointer: empty, or segments with a slash before each. -/
def isPointer (cs : List Char) : Bool :=
  (cs.isEmpty || cs.head? == some '/') && hasPlainTildes cs

/-- Whether a text is a pointer that begins with a number of levels to go up. -/
def isRelativePointer (cs : List Char) : Bool :=
  let levels := cs.takeWhile Char.isDigit
  let rest := cs.dropWhile Char.isDigit
  !levels.isEmpty && (levels.length == 1 || levels.head? != some '0') &&
    (rest == ['#'] || isPointer rest)

/-! ## All formats -/

/-- Whether a text has the format. -/
def accepts (text : String) : Format → Bool
  | .date => Calendar.isDate text.toList
  | .time => Calendar.isTime text.toList
  | .dateTime => Calendar.isDateTime text.toList
  | .duration => Calendar.isDuration text.toList
  | .email => isMail Uri.isHost text.toList
  | .internationalEmail => isMail Uri.isInternationalHost text.toList
  | .hostname => Uri.isHost text.toList
  | .internationalHostname => Uri.isInternationalHost text.toList
  | .ipv4 => Uri.isIPv4 text.toList
  | .ipv6 => Uri.isIPv6 text.toList
  | .uri => Uri.isAbsolute false text.toList
  | .uriReference => Uri.isReference false text.toList
  | .iri => Uri.isAbsolute true text.toList
  | .iriReference => Uri.isReference true text.toList
  | .uriTemplate => Uri.isTemplate none text.toList
  | .uuid => isUuid text.toList
  | .jsonPointer => isPointer text.toList
  | .relativeJsonPointer => isRelativePointer text.toList
  | .regex => (Regex.Expression.read text).isSome

end Format

end WorkflowRepair.Contract
