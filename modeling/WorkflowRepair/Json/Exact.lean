import WorkflowRepair.Json.Value
import WorkflowRepair.Decimal.Shortest

/-!
# Comparing values

Numbers are compared by what they denote, whether they are held as integers or as fractions, and
values are compared part by part. Objects are equal if their members are equal in order.
-/

namespace WorkflowRepair.Json

/-- The number `mantissa * 2 ^ exponent`. -/
structure Dyadic where
  mantissa : Int
  exponent : Int
deriving DecidableEq, Repr

namespace Dyadic

/-- What a finite fraction denotes. -/
def ofFloat (x : Float) : Dyadic :=
  let bits : Nat := x.toBits.toNat
  let fraction : Nat := bits % Nat.pow 2 52
  let biased : Nat := bits / Nat.pow 2 52 % Nat.pow 2 11
  let magnitude : Dyadic :=
    if biased = 0 then ⟨fraction, -1074⟩
    else ⟨(Nat.pow 2 52 + fraction : Nat), (biased : Int) - 1075⟩
  if bits < Nat.pow 2 63 then magnitude else ⟨-magnitude.mantissa, magnitude.exponent⟩

/-- The mantissa for an exponent that is at most the exponent held. -/
def scaled (d : Dyadic) (exponent : Int) : Int :=
  d.mantissa * (Nat.pow 2 (d.exponent - exponent).toNat : Nat)

/-- The order of two numbers. -/
def compare (a b : Dyadic) : Ordering :=
  let exponent := min a.exponent b.exponent
  Ord.compare (a.scaled exponent) (b.scaled exponent)

/-- Whether the number is whole. -/
def isWhole (d : Dyadic) : Bool := d.mantissa % (Nat.pow 2 (-d.exponent).toNat : Nat) == 0

/-- Whether `a` is a multiple of `b`, which is not zero. -/
def isMultiple (a b : Dyadic) : Bool :=
  let exponent := min a.exponent b.exponent
  a.scaled exponent % b.scaled exponent == 0

end Dyadic

namespace Number

/-- What a number denotes. -/
def exact : Number → Dyadic
  | .integer i => ⟨i, 0⟩
  | .float x => .ofFloat x

/-- The order of two numbers. -/
def compare (a b : Number) : Ordering := a.exact.compare b.exact

/-- Whether two numbers denote the same. -/
def same (a b : Number) : Bool := a.compare b == .eq

/-- Whether a number is whole, however it is held. -/
def isWhole (n : Number) : Bool := n.exact.isWhole

/-- The nearest fraction. -/
def toFloat : Number → Float
  | .integer i => Float.ofInt i
  | .float x => x

/-- A natural number held as a number of either sort. -/
def toNat? (n : Number) : Option Nat :=
  if n.isWhole && decide (0 ≤ n.exact.mantissa) then
    some (n.exact.mantissa.toNat * Nat.pow 2 n.exact.exponent.toNat /
      Nat.pow 2 (-n.exact.exponent).toNat)
  else none

end Number

namespace Value

mutual

/-- Whether two values are equal. -/
def same : Value → Value → Bool
  | .null, .null => true
  | .bool a, .bool b => a == b
  | .number a, .number b => a.same b
  | .string a, .string b => a == b
  | .array as, .array bs => sameItems as bs
  | .object as, .object bs => sameMembers as bs
  | _, _ => false

/-- Whether items are equal one by one. -/
def sameItems : List Value → List Value → Bool
  | [], [] => true
  | a :: as, b :: bs => same a b && sameItems as bs
  | _, _ => false

/-- Whether members are equal one by one. -/
def sameMembers : List (String × Value) → List (String × Value) → Bool
  | [], [] => true
  | (k, a) :: as, (l, b) :: bs => k == l && same a b && sameMembers as bs
  | _, _ => false

end

mutual

/-- The number of values in a value, itself included. -/
def size : Value → Nat
  | .array items => 1 + itemsSize items
  | .object members => 1 + membersSize members
  | _ => 1

/-- The number of values in items. -/
def itemsSize : List Value → Nat
  | [] => 0
  | v :: rest => size v + itemsSize rest

/-- The number of values in members. -/
def membersSize : List (String × Value) → Nat
  | [] => 0
  | (_, v) :: rest => size v + membersSize rest

end

/-- Whether no two items are equal. -/
def distinct : List Value → Bool
  | [] => true
  | v :: rest => rest.all (fun w => !v.same w) && distinct rest

end Value

end WorkflowRepair.Json
