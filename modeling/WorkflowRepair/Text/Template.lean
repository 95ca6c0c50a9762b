import WorkflowRepair.Json.Printer
import WorkflowRepair.Text.Blank
import WorkflowRepair.Text.Replace

/-!
# Templates

A template is a text with placeholders: a key between double braces, with blanks around it or not.
`render` puts values in their place in one pass, strips what still looks like a placeholder in a
second, and trims the result.
-/

namespace WorkflowRepair.Text

/-- The characters of a key. -/
def isKeyChar (c : Char) : Bool := c.isAlphanum || c == '_'

/-- The key of the placeholder at the head of the text, and the text behind it. -/
def placeholder? : List Char → Option (List Char × List Char)
  | '{' :: '{' :: inside =>
    let key := (skipBlanks inside).takeWhile isKeyChar
    if key.isEmpty then none
    else match skipBlanks ((skipBlanks inside).dropWhile isKeyChar) with
      | '}' :: '}' :: rest => some (key, rest)
      | _ => none
  | _ => none

/-- The text behind the leftover at the head of the text: double braces around at least one
character, none of them a closing brace. -/
def leftover? : List Char → Option (List Char)
  | '{' :: '{' :: inside =>
    if (inside.takeWhile (· != '}')).isEmpty then none
    else match inside.dropWhile (· != '}') with
      | '}' :: '}' :: rest => some rest
      | _ => none
  | _ => none

/-- What stands in place of a key: nothing if the key is not allowed, missing or null, a string
as it is, and any other value in its compact form. Without a list every key is allowed. -/
def keyText (vars : Json.Members) (allowed : Option (List String)) (key : String) : String :=
  if allowed.all (·.contains key) then
    match Json.Members.get? key vars with
    | none => ""
    | some .null => ""
    | some (.string s) => s
    | some v => v.compact
  else ""

/-- The pattern that puts values in place of placeholders. -/
def fill (vars : Json.Members) (allowed : Option (List String)) : Pattern := fun cs =>
  (placeholder? cs).map fun (key, rest) =>
    ((keyText vars allowed (String.ofList key)).toList, cs.length - rest.length)

/-- The pattern that strips leftovers. -/
def strip : Pattern := fun cs => (leftover? cs).map fun rest => ([], cs.length - rest.length)

/-- The template with the values of its keys. -/
def render (template : String) (vars : Json.Members) (allowed : Option (List String)) : String :=
  String.ofList (trim (replaceAll strip 0 (replaceAll (fill vars allowed) 0 template.toList)))

end WorkflowRepair.Text
