import WorkflowRepair.Contract.Schema
import WorkflowRepair.Text.Lossy
import WorkflowRepair.Uri.Basic

/-!
# References between schemas

A schema can have an address of its own and names for places in it. A reference is resolved against
the address of the schema it stands in, and leads to the schema with that address, to a named place
in it, or to what a pointer finds in it.
-/

namespace WorkflowRepair.Contract

open Json
open Uri (Reference)

/-- What directly holds schemas under a key: the value itself, its items, or its members. -/
inductive Holding where
  | direct
  | items
  | members

/-- How a key holds schemas, if it does. -/
def Holding.ofKey? : String → Option Holding
  | "additionalProperties" | "contains" | "contentSchema" | "else" | "if" | "items" | "not"
  | "propertyNames" | "then" | "unevaluatedItems" | "unevaluatedProperties" => some .direct
  | "allOf" | "anyOf" | "oneOf" | "prefixItems" => some .items
  | "$defs" | "definitions" | "dependentSchemas" | "patternProperties" | "properties" =>
    some .members
  | _ => none

/-- The schemas directly in an object, with where they stand in it. -/
def directSchemas (members : Members) : List (Location × Value) :=
  members.flatMap fun (key, v) =>
    match Holding.ofKey? key, v with
    | some .direct, v => [([key], v)]
    | some .items, .array items => items.mapIdx fun i v => ([key, toString i], v)
    | some .members, .object inner => inner.map fun (name, v) => ([key, name], v)
    | _, _ => []

/-- The address of a schema in a text that gives none. -/
def defaultAddress : Reference := Reference.split "json-schema:///".toList

/-- The address of a value that stands where `base` is the address. -/
def addressOf (base : Reference) : Value → Reference
  | .object members =>
    match (Members.get? "$id" members).bind Value.text? with
    | some id => (base.resolve (Reference.split id.toList)).whole
    | none => base
  | _ => base

/-- An address, or a named place, and the location it stands for. -/
abbrev Signpost := List Char × Location

/-- The named places of a schema whose address is `base`. -/
def namedPlaces (base : Reference) (location : Location) (members : Members) : List Signpost :=
  ["$anchor", "$dynamicAnchor"].filterMap fun key =>
    ((Members.get? key members).bind Value.text?).map fun name =>
      ({ base with fragment := some name.toList }.text, location)

/-- The signposts in a value that stands where `base` is the address; `fuel` bounds its depth. -/
def signpostsWithin : (fuel : Nat) → (base : Reference) → Location → Value → List Signpost
  | 0, _, _, _ => []
  | fuel + 1, base, location, v =>
    match v with
    | .object members =>
      let address := addressOf base v
      (address.text, location) :: namedPlaces address location members ++
        (directSchemas members).flatMap fun (step, inner) =>
          signpostsWithin fuel address (location ++ step) inner
    | _ => [(base.text, location)]

/-- The signposts in a text. Of several for one address the first one counts. -/
def signposts (root : Value) : List Signpost := signpostsWithin root.size defaultAddress [] root

/-! ## Pointers -/

/-- Take escapes of a percent sign and two digits apart into bytes. -/
def unescape : List Char → List UInt8
  | '%' :: a :: b :: rest =>
    match Regex.hexValue? a, Regex.hexValue? b with
    | some a, some b => (a * 16 + b).toUInt8 :: unescape rest
    | _, _ => 37 :: unescape (a :: b :: rest)
  | c :: rest => Text.encode c.toString ++ unescape rest
  | [] => []

/-- A segment of a pointer with its tildes resolved. -/
def plainSegment : List Char → List Char
  | '~' :: '1' :: rest => '/' :: plainSegment rest
  | '~' :: '0' :: rest => '~' :: plainSegment rest
  | c :: rest => c :: plainSegment rest
  | [] => []

/-- The segments of a pointer behind its first slash. -/
def pointerSegments (pointer : List Char) : Option (List String) :=
  (Text.decode? (unescape pointer)).map fun text =>
    ((Uri.segments text.toList).drop 1).map fun segment => String.ofList (plainSegment segment)

/-- The value one step into another. -/
def stepInto (step : String) : Value → Option Value
  | .object members => Members.get? step members
  | .array items =>
    let digits := step.toList
    if !digits.isEmpty && digits.all Char.isDigit then items[Uri.decimal digits]? else none
  | _ => none

/-- The value at a location in another, with the address that holds there. -/
def valueAt (base : Reference) : Location → Value → Option (Reference × Value)
  | [], v => some (base, v)
  | step :: rest, v => (stepInto step v).bind (valueAt (addressOf base v) rest)

/-- The location that a reference leads to from a schema with the address `base`, none if it leads
nowhere. -/
def resolve? (root : Value) (posts : List Signpost) (base : Reference) (reference : String) :
    Option Location :=
  let target := base.resolve (Reference.split reference.toList)
  let find (address : List Char) : Option Location := (posts.find? (·.1 == address)).map (·.2)
  match target.fragment with
  | none => find target.text
  | some [] => find target.whole.text
  | some ('/' :: pointer) =>
    (find target.whole.text).bind fun start =>
      (pointerSegments ('/' :: pointer)).bind fun steps =>
        let location := start ++ steps
        (valueAt defaultAddress location root).map fun _ => location
  | some _ => find target.text

end WorkflowRepair.Contract
