import WorkflowRepair.Contract.Schema

/-!
# The shape of schemas

What a text must look like to be a schema at all: under each known key stands a value of a certain
shape, also where the key has no effect. Unknown keys may hold anything.
-/

namespace WorkflowRepair.Contract

open Json

/-- The shape of the value under a key. -/
inductive Shape where
  | schema
  /-- At least one schema. -/
  | schemas
  /-- Schemas under names. -/
  | namedSchemas
  /-- A natural number. -/
  | count
  | number
  | positiveNumber
  | flag
  | text
  /-- Distinct strings. -/
  | texts
  /-- Distinct strings under names. -/
  | namedTexts
  /-- Schemas or distinct strings under names. -/
  | dependencies
  | list
  /-- The name of a type, or distinct ones. -/
  | types
  /-- An address without a fragment. -/
  | address
  /-- The name of a place. -/
  | anchor
  /-- Flags under names. -/
  | namedFlags
deriving DecidableEq, Repr

namespace Shape

/-- The shape that a key asks for. -/
def ofKey? : String → Option Shape
  | "$id" => some .address
  | "$schema" | "$ref" | "$dynamicRef" | "$recursiveRef" | "$comment" => some .text
  | "$anchor" | "$dynamicAnchor" | "$recursiveAnchor" => some .anchor
  | "$vocabulary" => some .namedFlags
  | "$defs" | "definitions" | "properties" | "patternProperties" | "dependentSchemas" =>
    some .namedSchemas
  | "dependencies" => some .dependencies
  | "prefixItems" | "allOf" | "anyOf" | "oneOf" => some .schemas
  | "items" | "contains" | "additionalProperties" | "propertyNames" | "if" | "then" | "else"
  | "not" | "unevaluatedItems" | "unevaluatedProperties" | "contentSchema" => some .schema
  | "type" => some .types
  | "enum" | "examples" => some .list
  | "multipleOf" => some .positiveNumber
  | "maximum" | "exclusiveMaximum" | "minimum" | "exclusiveMinimum" => some .number
  | "maxLength" | "minLength" | "maxItems" | "minItems" | "maxContains" | "minContains"
  | "maxProperties" | "minProperties" => some .count
  | "pattern" | "format" | "title" | "description" | "contentEncoding" | "contentMediaType" =>
    some .text
  | "uniqueItems" | "deprecated" | "readOnly" | "writeOnly" => some .flag
  | "required" => some .texts
  | "dependentRequired" => some .namedTexts
  | _ => none

/-- Whether a value is a list of distinct strings. -/
def areTexts : Value → Bool
  | .array items => items.all (fun v => v.text?.isSome) && Value.distinct items
  | _ => false

/-- Whether a value is the name of a type. -/
def isType (v : Value) : Bool := (v.text?.bind TypeName.ofName?).isSome

/-- Whether a text is the name of a place. -/
def isAnchor : List Char → Bool
  | [] => false
  | first :: rest =>
    (first.isAlpha || first == '_') &&
      rest.all fun c => c.isAlphanum || ['-', '.', '_'].contains c

/-- Whether every member of an object has a property. -/
def allMembers (holds : Value → Bool) : Value → Bool
  | .object members => members.all fun (_, v) => holds v
  | _ => false

/-- Whether a value has a shape, if `isSchema` says what a schema is. -/
def fits (isSchema : Value → Bool) : Shape → Value → Bool
  | .schema, v => isSchema v
  | .schemas, .array items => !items.isEmpty && items.all isSchema
  | .namedSchemas, v => allMembers isSchema v
  | .count, .number n => n.toNat?.isSome
  | .number, .number _ => true
  | .positiveNumber, .number n => decide (0 < n.exact.mantissa)
  | .flag, .bool _ => true
  | .text, .string _ => true
  | .texts, v => areTexts v
  | .namedTexts, v => allMembers areTexts v
  | .dependencies, v => allMembers (fun v => isSchema v || areTexts v) v
  | .list, .array _ => true
  | .types, .array items => !items.isEmpty && items.all isType && Value.distinct items
  | .types, v => isType v
  | .address, .string s => !(s.toList.dropLast.contains '#')
  | .anchor, .string s => isAnchor s.toList
  | .namedFlags, v => allMembers (fun v => v.kind == .boolean) v
  | _, _ => false

end Shape

/-- Whether a value has the shape of a schema; `fuel` bounds its depth. -/
def isSchemaWithin : (fuel : Nat) → Value → Bool
  | 0, _ => false
  | _, .bool _ => true
  | fuel + 1, .object members =>
    members.all fun (key, v) =>
      (Shape.ofKey? key).all fun shape => shape.fits (isSchemaWithin fuel) v
  | _, _ => false

/-- Whether a value has the shape of a schema. -/
def isSchema (v : Value) : Bool := isSchemaWithin v.size v

end WorkflowRepair.Contract
