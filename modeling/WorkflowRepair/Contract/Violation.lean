import WorkflowRepair.Contract.Schema
import WorkflowRepair.Json.Printer

/-!
# Violations

What a value does not fulfil of a contract: where in the value, and in which words.
-/

namespace WorkflowRepair.Contract

open Json

/-- The way to a part of a value, last step first. -/
abbrev Way := List String

/-- A violation. -/
structure Violation where
  /-- The part of the value, as a pointer. -/
  pointer : String
  message : String
deriving DecidableEq, Repr

/-- A step of a pointer, in which tildes and slashes are escaped. -/
def pointerStep (step : String) : List Char :=
  '/' :: step.toList.flatMap fun c =>
    if c = '~' then ['~', '0'] else if c = '/' then ['~', '1'] else [c]

/-- The pointer to the end of a way. -/
def pointer (way : Way) : String := String.ofList (way.reverse.flatMap pointerStep)

/-! ## Wording -/

/-- Texts with a separator between them. -/
def joined (separator : String) (texts : List String) : String := separator.intercalate texts

/-- A text between double quotes, as it is. -/
def inQuotes (text : String) : String := "\"" ++ text ++ "\""

/-- What is missing of the types. -/
def typesMessage (v : Value) (allowed : List TypeName) : String :=
  let listed := (TypeName.all.filter allowed.contains).map fun t => inQuotes t.name
  match allowed with
  | [t] => v.compact ++ " is not of type " ++ inQuotes t.name
  | _ => v.compact ++ " is not of types " ++ joined ", " listed

/-- Options as a list that ends in "or"; of more than three only two are named. -/
def options (values : List Value) : String :=
  match values.map Value.compact with
  | a :: b :: c :: d :: rest =>
    a ++ ", " ++ b ++ " or " ++ toString ((c :: d :: rest).length) ++ " other candidates"
  | [a, b, c] => a ++ ", " ++ b ++ " or " ++ c
  | [a, b] => a ++ " or " ++ b
  | [a] => a
  | [] => ""

/-- A count with the word for what is counted. -/
def counted (n : Nat) (one many : String) : String :=
  toString n ++ " " ++ (if n = 1 then one else many)

/-- How far a count is off its limit. -/
def countMessage (v : Value) (side : Side) (measure : Measure) (limit : Nat) : String :=
  v.compact ++ " " ++ match measure, side with
    | .characters, .least => "is shorter than " ++ counted limit "character" "characters"
    | .characters, .most => "is longer than " ++ counted limit "character" "characters"
    | .items, .least => "has less than " ++ counted limit "item" "items"
    | .items, .most => "has more than " ++ counted limit "item" "items"
    | .properties, .least => "has less than " ++ counted limit "property" "properties"
    | .properties, .most => "has more than " ++ counted limit "property" "properties"

/-- How far a number is off its limit. -/
def limitMessage (v : Value) (side : Side) (strict : Bool) (limit : Number) : String :=
  v.compact ++ " is " ++
    (match side, strict with
      | .least, false => "less than the minimum of "
      | .most, false => "greater than the maximum of "
      | .least, true => "less than or equal to the minimum of "
      | .most, true => "greater than or equal to the maximum of ") ++ String.ofList limit.text

/-- Which parts are unexpected. -/
def unexpectedMessage (kind : String) (parts : List String) : String :=
  kind ++ " are not allowed (" ++ joined ", " (parts.map fun part => "'" ++ part ++ "'") ++
    (if parts.length = 1 then " was unexpected)" else " were unexpected)")

/-- What no schema allows. -/
def falseMessage (v : Value) : String := "False schema does not allow " ++ v.compact

/-- What property is missing. -/
def requiredMessage (name : String) : String := inQuotes name ++ " is a required property"

end WorkflowRepair.Contract
