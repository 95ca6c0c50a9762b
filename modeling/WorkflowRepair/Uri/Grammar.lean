import WorkflowRepair.Uri.Address
import WorkflowRepair.Uri.Basic

/-!
# Well-formed references

Which texts are references at all: every part may hold certain characters and escapes of a percent
sign with two digits. An international reference may also hold characters beyond ASCII.
-/

namespace WorkflowRepair.Uri

/-- The characters that never need an escape. -/
def isUnreserved (c : Char) : Bool := c.isAlphanum || ['-', '.', '_', '~'].contains c

/-- The characters that may separate parts of a component. -/
def isDelimiter (c : Char) : Bool :=
  ['!', '$', '&', '\'', '(', ')', '*', '+', ',', ';', '='].contains c

/-- The characters beyond ASCII that an international reference may hold. -/
def isForeign (c : Char) : Bool :=
  let n := c.toNat
  (0xA0 ≤ n && n ≤ 0xD7FF) || (0xF900 ≤ n && n ≤ 0xFDCF) || (0xFDF0 ≤ n && n ≤ 0xFFEF) ||
    (0x10000 ≤ n && n < 0xE0000 && n % 0x10000 < 0xFFFE) || (0xE1000 ≤ n && n < 0xEFFFE)

/-- The characters beyond ASCII that only the query of an international reference may hold. -/
def isPrivate (c : Char) : Bool :=
  let n := c.toNat
  (0xE000 ≤ n && n ≤ 0xF8FF) || (0xF0000 ≤ n && n < 0xFFFFE) || (0x100000 ≤ n && n < 0x10FFFE)

/-- Whether a text holds only allowed characters and escapes. -/
def isEscaped (allowed : Char → Bool) : List Char → Bool
  | [] => true
  | '%' :: a :: b :: rest => isHexDigit a && isHexDigit b && isEscaped allowed rest
  | c :: rest => allowed c && isEscaped allowed rest

/-- Whether a text is a scheme. -/
def isScheme : List Char → Bool
  | [] => false
  | first :: rest => first.isAlpha && rest.all fun c => c.isAlphanum || ['+', '-', '.'].contains c

/-- Whether a text between brackets is an address. -/
def isBracketed (cs : List Char) : Bool :=
  match cs with
  | first :: rest =>
    if first == 'v' || first == 'V' then
      match cut ['.'] rest with
      | (version, '.' :: address) =>
        !version.isEmpty && version.all isHexDigit && !address.isEmpty &&
          address.all fun c => isUnreserved c || isDelimiter c || c == ':'
      | _ => false
    else isIPv6 cs
  | [] => false

/-- Whether a text is a host and, behind a colon, a row of digits or nothing. -/
def isEndpoint (isLetter : Char → Bool) (cs : List Char) : Bool :=
  match cs with
  | '[' :: rest =>
    match cut [']'] rest with
    | (address, ']' :: behind) =>
      isBracketed address && match behind with
        | [] => true
        | ':' :: digits => digits.all Char.isDigit
        | _ => false
    | _ => false
  | _ =>
    let (host, behind) := cut [':'] cs
    isEscaped (fun c => isUnreserved c || isDelimiter c || isLetter c) host &&
      (behind.drop 1).all Char.isDigit

/-- Whether a text is an authority: user information before an at sign, and an endpoint. -/
def isAuthority (isLetter : Char → Bool) (cs : List Char) : Bool :=
  let behind := cs.reverse.takeWhile (· != '@')
  let before := cs.take (cs.length - behind.length - 1)
  let user := if cs.contains '@' then before else []
  isEscaped (fun c => isUnreserved c || isDelimiter c || c == ':' || isLetter c) user &&
    isEndpoint isLetter behind.reverse

/-- Whether a path may stand with the other parts of its reference. -/
def fitsPath (r : Reference) : Bool :=
  if r.authority.isSome then r.path.isEmpty || r.path.head? == some '/'
  else r.path.take 2 != ['/', '/'] &&
    (r.scheme.isSome || !((r.path.takeWhile (· != '/')).contains ':'))

/-- Whether the parts of a reference are well formed. -/
def Reference.isWellFormed (international : Bool) (r : Reference) : Bool :=
  let isLetter (c : Char) : Bool := international && isForeign c
  let inPath (c : Char) : Bool :=
    isUnreserved c || isDelimiter c || [':', '@', '/'].contains c || isLetter c
  r.scheme.all isScheme && r.authority.all (isAuthority isLetter) && fitsPath r &&
    isEscaped inPath r.path &&
    r.query.all (isEscaped fun c => inPath c || c == '?' || (international && isPrivate c)) &&
    r.fragment.all (isEscaped fun c => inPath c || c == '?')

/-- Whether a text is a reference. -/
def isReference (international : Bool) (cs : List Char) : Bool :=
  (Reference.split cs).isWellFormed international

/-- Whether a text is a reference with a scheme. -/
def isAbsolute (international : Bool) (cs : List Char) : Bool :=
  (Reference.split cs).scheme.isSome && isReference international cs

/-! ## Templates -/

/-- Whether a text is a name in a template, with the modifier behind it. -/
def isTemplateName (cs : List Char) : Bool :=
  let (name, modifier) := cut [':', '*'] cs
  !name.isEmpty && (splitAt '.' name).all (fun part =>
      !part.isEmpty && isEscaped (fun c => c.isAlphanum || c == '_') part) &&
    match modifier with
    | [] => true
    | ['*'] => true
    | ':' :: first :: rest =>
      first.isDigit && first != '0' && rest.length ≤ 3 && rest.all Char.isDigit
    | _ => false

/-- Whether a text is an expression of a template. -/
def isTemplateExpression (cs : List Char) : Bool :=
  let names := match cs with
    | c :: rest =>
      if ['+', '#', '.', '/', ';', '?', '&', '=', ',', '!', '@', '|'].contains c then rest else cs
    | [] => []
  (splitAt ',' names).all isTemplateName

/-- The characters that a template may not hold outside of its expressions, apart from blanks and
controls. -/
def isForbidden (c : Char) : Bool :=
  ['"', '\'', '<', '>', '\\', '^', Char.ofNat 96, '|', '}'].contains c

/-- Whether a text is a template: characters, escapes, and expressions between braces. `inside`
holds the expression that is being read, last character first. -/
def isTemplate (inside : Option (List Char)) : List Char → Bool
  | [] => inside.isNone
  | c :: rest =>
    match inside with
    | some read =>
      if c = '}' then isTemplateExpression read.reverse && isTemplate none rest
      else isTemplate (some (c :: read)) rest
    | none =>
      if c = '{' then isTemplate (some []) rest
      else if c = '%' then
        (rest.take 2).length == 2 && (rest.take 2).all isHexDigit && isTemplate none rest
      else 0x20 < c.toNat && !isForbidden c && isTemplate none rest

end WorkflowRepair.Uri
