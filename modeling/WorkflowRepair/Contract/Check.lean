import WorkflowRepair.Contract.Reader
import WorkflowRepair.Contract.Violation

/-!
# Checking values

`Contract.violations` lists what a value violates, part by part in the order of the pointers, and
within one part in the order in which the schema states its assertions. What an assertion says
about parts of a value is given by functions that check a part against a schema; `violationsWithin`
ties the knot.
-/

namespace WorkflowRepair.Contract

open Json

/-- The violation of a value at the end of a way. -/
def violation (way : Way) (message : String) : Violation := ⟨pointer way, message⟩

/-- One violation if something does not hold. -/
def demand (holds : Bool) (way : Way) (message : String) : List Violation :=
  if holds then [] else [violation way message]

/-! ## Numbers and counts -/

/-- The number that a schema counts in a value, none if there is nothing to count. -/
def Measure.of : Measure → Value → Option Nat
  | .characters, .string s => some s.length
  | .items, .array list => some list.length
  | .properties, .object fields => some fields.length
  | _, _ => none

/-- Whether a count keeps to its limit. -/
def Side.allowsCount (limit n : Nat) : Side → Bool
  | .least => limit ≤ n
  | .most => n ≤ limit

/-- Whether a number keeps to its limit. -/
def Side.allows (strict : Bool) (limit n : Number) (side : Side) : Bool :=
  match side, n.compare limit with
  | _, .eq => !strict
  | .least, order => order == .gt
  | .most, order => order == .lt

/-- The distance between one and the next larger fraction is `2 ^ -52`; what is left of a quotient
of fractions counts as nothing below it. -/
def isNearlyWhole (quotient : Float) : Bool :=
  let d := Dyadic.ofFloat quotient
  let unit := Nat.pow 2 (-d.exponent).toNat
  d.mantissa < 0 || d.mantissa.toNat % unit * Nat.pow 2 52 < unit

/-- Whether one decimal is a whole multiple of another. -/
def isDecimalMultiple (a b : Decimal) : Bool :=
  let exponent := min a.exponent b.exponent
  let scaled (d : Decimal) : Nat := d.digits * Nat.pow 10 (d.exponent - exponent).toNat
  scaled a % scaled b == 0

/-- The shortest decimal of a fraction that is not zero. -/
def shortest (x : Float) : Decimal := (Decimal.Interval.ofBits x.toBits).shortest

/-- Whether a number is a multiple of a divisor. A whole divisor is exact; otherwise the quotient
is formed as a fraction, or, if that is infinite, between the shortest decimals. -/
def isMultipleOf (n divisor : Number) : Bool :=
  if divisor.isWhole then n.exact.isMultiple divisor.exact
  else
    let quotient := n.toFloat / divisor.toFloat
    if quotient.isFinite then isNearlyWhole quotient
    else isDecimalMultiple (shortest n.toFloat) (shortest divisor.toFloat)

/-! ## What a schema evaluates

The names of the members, and the positions of the items, that some assertion of a schema has taken
in hand with success. -/

section

variable (accepts : Schema → Value → Bool)

/-- The schemas that apply to a whole value that satisfies them. -/
def Assertion.applied (contract : Contract) (v : Value) : Assertion → List Schema
  | .reference location => [contract.target location]
  | .allOf schemas => schemas.filter (accepts · v)
  | .anyOf schemas => schemas.filter (accepts · v)
  | .oneOf schemas =>
    match schemas.filter (accepts · v) with
    | [schema] => [schema]
    | _ => []
  | .conditional test yes no => if accepts test v then test :: yes.toList else no.toList
  | .dependentSchemas entries =>
    match v with
    | .object fields => (entries.filter fun e => Members.contains e.1 fields).map (·.2)
    | _ => []
  | _ => []

/-- Whether an assertion has taken a member in hand. -/
def Assertion.evaluatesMember (name : String) (v : Value) : Assertion → Bool
  | .members named patterned others =>
    ((named.getD []).any fun (key, schema) => key == name && accepts schema v) ||
      ((patterned.getD []).any fun (e, schema) => e.accepts name && accepts schema v) ||
      others.any (accepts · v)
  | .unevaluatedMembers schema => accepts schema v
  | _ => false

/-- Whether an assertion has taken an item in hand. -/
def Assertion.evaluatesItem (position : Nat) (v : Value) : Assertion → Bool
  | .leadingItems schemas => position < schemas.length
  | .items .. => true
  | .contains schema .. => accepts schema v
  | .unevaluatedItems schema => accepts schema v
  | _ => false

end

/-- The assertions that a schema makes about a value, with those of the schemas that it applies to
the whole of it. -/
def assertionsWithin (contract : Contract) (accepts : Schema → Value → Bool) (v : Value) :
    (fuel : Nat) → Schema → List Assertion
  | 0, _ => []
  | _, .constant _ => []
  | fuel + 1, .object _ assertions =>
    assertions ++ (assertions.flatMap (Assertion.applied accepts contract v)).flatMap
      (assertionsWithin contract accepts v fuel)

/-! ## Assertions -/

section

variable (check : Schema → Way → Value → List Violation)

/-- Whether a value satisfies a schema. -/
def satisfies (schema : Schema) (v : Value) : Bool := (check schema [] v).isEmpty

/-- Whether a name is concerned by named or patterned schemas. -/
def isConcerned (named : List (String × Schema)) (patterned : List (Regex.Expression × Schema))
    (name : String) : Bool :=
  named.any (fun entry => entry.1 == name) || patterned.any fun entry => entry.1.accepts name

/-- The violations of one member by the schemas of its name. -/
def concerningViolations (named : List (String × Schema))
    (patterned : List (Regex.Expression × Schema)) (way : Way) (name : String) (v : Value) :
    List Violation :=
  ((named.filter (·.1 == name)).flatMap fun entry => check entry.2 (name :: way) v) ++
    (patterned.filter (·.1.accepts name)).flatMap fun entry => check entry.2 (name :: way) v

/-- The violations of members. Members that are not allowed at all are listed together. -/
def memberViolations (named : Option (List (String × Schema)))
    (patterned : Option (List (Regex.Expression × Schema))) (others : Option Schema) (way : Way)
    (members : Members) : List Violation :=
  let concerned := isConcerned (named.getD []) (patterned.getD [])
  let concerning :=
    members.flatMap fun (name, v) =>
      concerningViolations check (named.getD []) (patterned.getD []) way name v
  match others with
  | none => concerning
  | some (.constant false) =>
    match named, patterned with
    | none, none =>
      match members with
      | [] => []
      | (_, v) :: _ => [violation way (falseMessage v)]
    | _, _ =>
      let unexpected := (members.filter fun (name, _) => !concerned name).map (·.1)
      concerning ++
        demand unexpected.isEmpty way (unexpectedMessage "Additional properties" unexpected)
  | some schema =>
    concerning ++ (members.filter fun (name, _) => !concerned name).flatMap fun (name, v) =>
      check schema (name :: way) v

/-- The violations of items behind the first `skip`. -/
def itemViolations (schema : Schema) (skip : Nat) (way : Way) (items : List Value) :
    List Violation :=
  ((items.mapIdx fun position v => (position, v)).drop skip).flatMap fun (position, v) =>
    check schema (toString position :: way) v

/-- The violations of the names of an object. -/
def nameViolations (schema : Schema) (way : Way) (members : Members) : List Violation :=
  match schema with
  | .constant false => demand members.isEmpty way (falseMessage (.object members))
  | schema =>
    members.flatMap fun (name, _) =>
      (check schema [] (.string name)).map fun inner => violation way inner.message

/-- The violations of one of several schemas. -/
def oneOfViolations (schemas : List Schema) (way : Way) (v : Value) : List Violation :=
  match schemas.filter (satisfies check · v) with
  | [] =>
    [violation way (v.compact ++
      " is not valid under any of the schemas listed in the 'oneOf' keyword")]
  | [_] => []
  | _ =>
    [violation way (v.compact ++
      " is valid under more than one of the schemas listed in the 'oneOf' keyword")]

/-- The violations of what nothing else has evaluated. -/
def unevaluatedViolations (evaluated : List Assertion) (schema : Schema) (way : Way) :
    Value → List Violation
  | .object members =>
    let unexpected := (members.filter fun (name, v) =>
      !(evaluated.any (·.evaluatesMember (satisfies check) name v) ||
        satisfies check schema v)).map (·.1)
    demand unexpected.isEmpty way (unexpectedMessage "Unevaluated properties" unexpected)
  | .array items =>
    let unexpected := ((items.mapIdx fun position v => (position, v)).filter fun (position, v) =>
      !(evaluated.any (·.evaluatesItem (satisfies check) position v) ||
        satisfies check schema v)).map fun (_, v) => v.compact
    demand unexpected.isEmpty way (unexpectedMessage "Unevaluated items" unexpected)
  | _ => []

/-- The violations of one assertion. `bearing` gives the assertions that bear on the same value. -/
def Assertion.violations (contract : Contract) (bearing : Value → List Assertion) (way : Way)
    (v : Value) :
    Assertion → List Violation
  | .reference location => check (contract.target location) way v
  | .types allowed => demand (allowed.any (·.holds v)) way (typesMessage v allowed)
  | .anyValue values =>
    demand (values.any (·.same v)) way (v.compact ++ " is not one of " ++ options values)
  | .value expected => demand (expected.same v) way (expected.compact ++ " was expected")
  | .count side measure bound =>
    demand ((measure.of v).all (side.allowsCount bound)) way (countMessage v side measure bound)
  | .limit side strict bound =>
    match v with
    | .number n => demand (side.allows strict bound n) way (limitMessage v side strict bound)
    | _ => []
  | .multipleOf divisor =>
    match v with
    | .number n =>
      demand (isMultipleOf n divisor) way
        (v.compact ++ " is not a multiple of " ++ String.ofList divisor.text)
    | _ => []
  | .distinctItems =>
    match v with
    | .array list => demand (Value.distinct list) way (v.compact ++ " has non-unique elements")
    | _ => []
  | .pattern text expression =>
    match v with
    | .string s =>
      demand (expression.accepts s) way
        (v.compact ++ " does not match " ++ inQuotes (Regex.shown text))
    | _ => []
  | .format name form =>
    match v with
    | .string s => demand (form.accepts s) way (v.compact ++ " is not a " ++ inQuotes name)
    | _ => []
  | .required keys =>
    match v with
    | .object fields =>
      (keys.filter fun name => !Members.contains name fields).map fun name =>
        violation way (requiredMessage name)
    | _ => []
  | .dependentRequired entries =>
    match v with
    | .object fields =>
      (entries.filter fun entry => Members.contains entry.1 fields).flatMap fun (_, keys) =>
        (keys.filter fun name => !Members.contains name fields).map fun name =>
          violation way (requiredMessage name)
    | _ => []
  | .dependentSchemas entries =>
    match v with
    | .object fields =>
      (entries.filter fun entry => Members.contains entry.1 fields).flatMap fun (_, schema) =>
        check schema way v
    | _ => []
  | .members named patterned others =>
    match v with
    | .object fields => memberViolations check named patterned others way fields
    | _ => []
  | .names schema =>
    match v with
    | .object fields => nameViolations check schema way fields
    | _ => []
  | .items skip schema =>
    match v with
    | .array list => itemViolations check schema skip way list
    | _ => []
  | .leadingItems schemas =>
    match v with
    | .array list =>
      ((schemas.zip list).mapIdx fun position (schema, v) =>
        check schema (toString position :: way) v).flatten
    | _ => []
  | .contains schema least most =>
    match v with
    | .array list =>
      let found := (list.filter (satisfies check schema)).length
      demand (least ≤ found && most.all (found ≤ ·)) way
        ("None of " ++ v.compact ++ " are valid under the given schema")
    | _ => []
  | .allOf schemas => schemas.flatMap fun schema => check schema way v
  | .anyOf schemas =>
    demand (schemas.any (satisfies check · v)) way
      (v.compact ++ " is not valid under any of the schemas listed in the 'anyOf' keyword")
  | .oneOf schemas => oneOfViolations check schemas way v
  | .negation schema =>
    demand (!satisfies check schema v) way
      (schema.source.compact ++ " is not allowed for " ++ v.compact)
  | .conditional test yes no =>
    match (if satisfies check test v then yes else no) with
    | some schema => check schema way v
    | none => []
  | .unevaluatedMembers schema =>
    match v with
    | .object _ => unevaluatedViolations check (bearing v) schema way v
    | _ => []
  | .unevaluatedItems schema =>
    match v with
    | .array _ => unevaluatedViolations check (bearing v) schema way v
    | _ => []

end

/-! ## Values -/

/-- The violations of a value, found in at most `fuel` steps from schema to schema. -/
def violationsWithin (contract : Contract) : (fuel : Nat) → Schema → Way → Value → List Violation
  | 0, _, _, _ => []
  | fuel + 1, schema, way, v =>
    match schema with
    | .constant allowed => demand allowed way (falseMessage v)
    | .object _ assertions =>
      let check := violationsWithin contract fuel
      let bearing (v : Value) := assertionsWithin contract (satisfies check) v fuel schema
      assertions.flatMap (Assertion.violations check contract bearing way v)

/-- The violations of a value. Unless a reference goes round in a circle, a part of the value meets
every schema at most once on the way to it, which bounds the number of steps. -/
def violations (contract : Contract) (v : Value) : List Violation :=
  (violationsWithin contract ((contract.size + 1) * (v.size + 2)) contract.root [] v).mergeSort
    fun a b => !decide (b.pointer < a.pointer)

end WorkflowRepair.Contract
