import WorkflowRepair.Contract.Reference
import WorkflowRepair.Contract.Shape

/-!
# Reading contracts

`Contract.read` reads a schema and the schemas that its references lead to. It refuses a value that
has not the shape of a schema, a pattern that is no regular expression, and a reference that leads
nowhere.
-/

namespace WorkflowRepair.Contract

open Json
open Uri (Reference)

/-- The text that schemas are read from, with its signposts. -/
structure Source where
  root : Value
  posts : List Signpost

/-- A step of reading: it may refuse, and it collects the locations that references lead to. -/
abbrev Reading := StateT (List Location) Option

/-- Refuse. -/
def refuse {α : Type} : Reading α := fun _ => none

/-- Take a value that may be missing. -/
def expect {α : Type} : Option α → Reading α
  | some a => pure a
  | none => refuse

/-- The strings of an array of strings. -/
def texts? : Value → Option (List String)
  | .array items => items.mapM Value.text?
  | _ => none

/-- The members of an object. -/
def members? : Value → Option Members
  | .object members => some members
  | _ => none

/-- The natural number under a key, none if the key is missing. -/
def countUnder (key : String) (members : Members) : Reading (Option Nat) :=
  match Members.get? key members with
  | none => pure none
  | some (.number n) => return some (← expect n.toNat?)
  | some _ => refuse

section

variable (read : Value → Reading Schema)

/-- Read schemas under names. -/
def readNamed (v : Value) : Reading (List (String × Schema)) := do
  (← expect (members? v)).mapM fun (name, v) => return (name, ← read v)

/-- Read schemas under patterns. -/
def readPatterned (v : Value) : Reading (List (Regex.Expression × Schema)) := do
  (← expect (members? v)).mapM fun (text, v) =>
    return (← expect (Regex.Expression.read text), ← read v)

/-- Read a list of schemas. -/
def readList : Value → Reading (List Schema)
  | .array items => items.mapM read
  | _ => refuse

/-- Read what stands under a key, if the key is there. -/
def readUnder {α : Type} (readValue : Value → Reading α) (key : String) (members : Members) :
    Reading (Option α) :=
  match Members.get? key members with
  | none => pure none
  | some v => return some (← readValue v)

/-- Whether a schema states which members stand beside those that it names, so that it takes all of
them in hand at once. -/
def closesMembers (members : Members) : Bool :=
  match Members.get? "additionalProperties" members with
  | some (.bool false) => true
  | some (.object _) => true
  | _ => false

/-- Read the assertion about the members that nothing names, with those about named ones. -/
def readOthers (members : Members) (v : Value) : Reading (Option Assertion) :=
  match v with
  | .bool true => pure none
  | v => do
    let patterned ← readUnder (readPatterned read) "patternProperties" members
    let named ← readUnder (readNamed read) "properties" members
    return some (.members named patterned (some (← read v)))

/-- Read a dependency: the names it requires, or a schema. -/
def readDependencies (v : Value) : Reading (List Assertion) := do
  (← expect (members? v)).mapM fun (name, v) =>
    match texts? v with
    | some names => return .dependentRequired [(name, names)]
    | none => return .dependentSchemas [(name, ← read v)]

/-- Read a limit for numbers. -/
def readLimit (side : Side) (strict : Bool) : Value → Reading (List Assertion)
  | .number n => pure [.limit side strict n]
  | _ => refuse

/-- Read a limit for a count. -/
def readCountLimit (side : Side) (measure : Measure) : Value → Reading (List Assertion)
  | .number n => return [.count side measure (← expect n.toNat?)]
  | _ => refuse

/-- Read the names of types. -/
def readTypes : Value → Reading (List Assertion)
  | .string name => return [.types [← expect (TypeName.ofName? name)]]
  | .array items => return [.types (← items.mapM fun v => expect (v.text?.bind TypeName.ofName?))]
  | _ => refuse

/-- Read a reference. -/
def readReference (source : Source) (base : Reference) (v : Value) : Reading (List Assertion) := do
  let text ← expect v.text?
  let location ← expect (resolve? source.root source.posts base text)
  modify (location :: ·)
  return [.reference location]

/-- Read what the key of a schema asserts; unknown keys assert nothing. -/
def readAssertions (source : Source) (base : Reference) (members : Members) (key : String)
    (v : Value) : Reading (List Assertion) :=
  match key with
  | "$ref" | "$dynamicRef" => readReference source base v
  | "type" => readTypes v
  | "enum" =>
    match v with
    | .array values => pure [.anyValue values]
    | _ => refuse
  | "const" => pure [.value v]
  | "minLength" => readCountLimit .least .characters v
  | "maxLength" => readCountLimit .most .characters v
  | "minItems" => readCountLimit .least .items v
  | "maxItems" => readCountLimit .most .items v
  | "minProperties" => readCountLimit .least .properties v
  | "maxProperties" => readCountLimit .most .properties v
  | "minimum" => readLimit .least false v
  | "exclusiveMinimum" => readLimit .least true v
  | "maximum" => readLimit .most false v
  | "exclusiveMaximum" => readLimit .most true v
  | "multipleOf" =>
    match v with
    | .number n => pure [.multipleOf n]
    | _ => refuse
  | "uniqueItems" =>
    match v with
    | .bool true => pure [.distinctItems]
    | .bool false => pure []
    | _ => refuse
  | "pattern" => do
    let text ← expect v.text?
    return [.pattern text (← expect (Regex.Expression.read text))]
  | "format" => do
    let name ← expect v.text?
    return match Format.ofName? name with
      | some format => [.format name format]
      | none => []
  | "required" => return [.required (← expect (texts? v))]
  | "dependentRequired" => do
    let entries ← (← expect (members? v)).mapM fun (name, v) => return (name, ← expect (texts? v))
    return [.dependentRequired entries]
  | "dependentSchemas" => return [.dependentSchemas (← readNamed read v)]
  | "dependencies" => readDependencies read v
  | "properties" =>
    if closesMembers members then pure []
    else return [.members (some (← readNamed read v)) none none]
  | "patternProperties" =>
    if closesMembers members then pure []
    else return [.members none (some (← readPatterned read v)) none]
  | "additionalProperties" => return (← readOthers read members v).toList
  | "propertyNames" => return [.names (← read v)]
  | "prefixItems" => return [.leadingItems (← readList read v)]
  | "items" =>
    let skip := match Members.get? "prefixItems" members with
      | some (.array leading) => leading.length
      | _ => 0
    return [.items skip (← read v)]
  | "contains" => do
    let least ← countUnder "minContains" members
    let most ← countUnder "maxContains" members
    return [.contains (← read v) (least.getD 1) most]
  | "allOf" => return [.allOf (← readList read v)]
  | "anyOf" => return [.anyOf (← readList read v)]
  | "oneOf" => return [.oneOf (← readList read v)]
  | "not" => return [.negation (← read v)]
  | "if" => do
    let yes ← readUnder read "then" members
    let no ← readUnder read "else" members
    return [.conditional (← read v) yes no]
  | "unevaluatedProperties" => return [.unevaluatedMembers (← read v)]
  | "unevaluatedItems" => return [.unevaluatedItems (← read v)]
  | _ => pure []

end

/-- Read a schema that stands where `base` is the address; `fuel` bounds its depth. -/
def readSchema (source : Source) : (fuel : Nat) → (base : Reference) → Value → Reading Schema
  | 0, _, _ => refuse
  | fuel + 1, base, v =>
    match v with
    | .bool allowed => pure (.constant allowed)
    | .object members => do
      let base := addressOf base v
      let assertions ← members.mapM fun (key, v) =>
        readAssertions (readSchema source fuel base) source base members key v
      return .object members assertions.flatten
    | _ => refuse

/-- Read the schema at a location, with the locations that references in it lead to. -/
def readAt (source : Source) (location : Location) : Option (Schema × List Location) :=
  (valueAt defaultAddress location source.root).bind fun (base, v) =>
    (readSchema source source.root.size base v).run []

/-- Read the schemas at pending locations, and at those that references in them lead to in turn. -/
def readTargets (source : Source) : (fuel : Nat) → (pending : List Location) →
    (done : List (Location × Schema)) → Option (List (Location × Schema))
  | 0, _, done => some done
  | _, [], done => some done
  | fuel + 1, location :: pending, done =>
    if done.any (·.1 == location) then readTargets source fuel pending done
    else match readAt source location with
      | none => none
      | some (schema, found) =>
        readTargets source fuel (pending ++ found) ((location, schema) :: done)

/-- Read a contract, none if the value is none. Every location is read at most once, and no schema
has more references than the text has values. -/
def read (root : Value) : Option Contract :=
  if isSchema root then
    let source : Source := ⟨root, signposts root⟩
    match readAt source [] with
    | none => none
    | some (schema, found) =>
      (readTargets source ((root.size + 1) * (root.size + 1)) found []).map fun targets =>
        { root := schema, targets, size := root.size }
  else none

end WorkflowRepair.Contract
