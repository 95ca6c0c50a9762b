import WorkflowRepair.Contract.Format
import WorkflowRepair.Json.Exact

/-!
# Schemas

A schema as it is applied to values: a list of assertions in the order in which it states them. A
contract is a schema together with the schemas that references in it lead to.
-/

namespace WorkflowRepair.Contract

open Json

/-- The types that a schema tells apart, in the order in which messages list them. -/
inductive TypeName where
  | array
  | boolean
  | integer
  | null
  | number
  | object
  | string
deriving DecidableEq, Repr

namespace TypeName

/-- All types. -/
def all : List TypeName := [.array, .boolean, .integer, .null, .number, .object, .string]

/-- The name of a type in schemas and messages. -/
def name : TypeName → String
  | .array => "array"
  | .boolean => "boolean"
  | .integer => "integer"
  | .null => "null"
  | .number => "number"
  | .object => "object"
  | .string => "string"

/-- The type of a name. -/
def ofName? (name : String) : Option TypeName := all.find? (·.name == name)

/-- Whether a value is of a type. A whole number is an integer however it is held. -/
def holds : TypeName → Value → Bool
  | .array, .array _ => true
  | .boolean, .bool _ => true
  | .integer, .number n => n.isWhole
  | .null, .null => true
  | .number, .number _ => true
  | .object, .object _ => true
  | .string, .string _ => true
  | _, _ => false

end TypeName

/-- Where a schema stands in the text of a contract: the keys and positions on the way to it. -/
abbrev Location := List String

/-- Whether a limit is the least or the most that is allowed. -/
inductive Side where
  | least
  | most
deriving DecidableEq, Repr

/-- What a schema counts. -/
inductive Measure where
  | characters
  | items
  | properties
deriving DecidableEq, Repr

mutual

/-- A schema. -/
inductive Schema where
  /-- Allows everything or nothing. -/
  | constant (allowed : Bool)
  /-- All of some assertions, with the object that states them. -/
  | object (source : Members) (assertions : List Assertion)

/-- One thing that a schema asserts. -/
inductive Assertion where
  /-- What the schema at a location asserts. -/
  | reference (location : Location)
  | types (allowed : List TypeName)
  | anyValue (values : List Value)
  | value (value : Value)
  | count (side : Side) (measure : Measure) (limit : Nat)
  /-- A limit for numbers, which a strict one does not include. -/
  | limit (side : Side) (strict : Bool) (limit : Number)
  | multipleOf (divisor : Number)
  | distinctItems
  | pattern (text : String) (expression : Regex.Expression)
  | format (name : String) (format : Format)
  | required (names : List String)
  /-- For each present property, the properties that it requires. -/
  | dependentRequired (entries : List (String × List String))
  /-- For each present property, a schema of the whole object. -/
  | dependentSchemas (entries : List (String × Schema))
  /-- Schemas of the members by name and by pattern, if any are stated, and a schema of the
  members that none of them concerns. -/
  | members (named : Option (List (String × Schema)))
      (patterned : Option (List (Regex.Expression × Schema))) (others : Option Schema)
  /-- A schema of every name. -/
  | names (schema : Schema)
  /-- A schema of every item behind the first `skip`. -/
  | items (skip : Nat) (schema : Schema)
  /-- Schemas of the first items, one each. -/
  | leadingItems (schemas : List Schema)
  /-- How many items satisfy a schema. -/
  | contains (schema : Schema) (least : Nat) (most : Option Nat)
  | allOf (schemas : List Schema)
  | anyOf (schemas : List Schema)
  | oneOf (schemas : List Schema)
  | negation (schema : Schema)
  | conditional (test : Schema) (yes no : Option Schema)
  /-- A schema of the members that nothing else in the schema has evaluated. -/
  | unevaluatedMembers (schema : Schema)
  /-- A schema of the items that nothing else in the schema has evaluated. -/
  | unevaluatedItems (schema : Schema)

end

/-- The text of a schema as a value. -/
def Schema.source : Schema → Value
  | .constant allowed => .bool allowed
  | .object source _ => .object source

end WorkflowRepair.Contract

namespace WorkflowRepair

/-- A contract. -/
structure Contract where
  root : Contract.Schema
  /-- The schemas that references lead to. -/
  targets : List (Contract.Location × Contract.Schema)
  /-- The number of values in the text, which bounds the number of schemas. -/
  size : Nat

/-- The schema at a location, which allows everything if there is none. -/
def Contract.target (contract : Contract) (location : Contract.Location) : Contract.Schema :=
  ((contract.targets.find? (·.1 == location)).map (·.2)).getD (.constant true)

end WorkflowRepair
