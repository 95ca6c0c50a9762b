/-!
# Shortest decimals

A finite binary fraction stands for every real number that rounds to it. The shortest decimal is
the one with the fewest digits among those reals, and of two with equally many digits the nearer
one. Everything is exact arithmetic on natural numbers.
-/

namespace WorkflowRepair

/-- A decimal `digits * 10 ^ exponent`. -/
structure Decimal where
  digits : Nat
  exponent : Int
deriving DecidableEq, Repr

namespace Decimal

/-- The reals that round to one binary fraction, over a common denominator: they lie between
`low / scale` and `high / scale`, ends included when `closed`, and the fraction itself is
`middle / scale`. -/
structure Interval where
  low : Nat
  middle : Nat
  high : Nat
  scale : Nat
  closed : Bool
deriving Repr

namespace Interval

/-- The interval of the value `significand * 2 ^ exponent`. The gap below is half as wide when
`narrowBelow`, that is, when the next smaller fraction has a smaller exponent. An end rounds to
the fraction exactly if the significand is even. -/
def ofBinary (significand : Nat) (exponent : Int) (narrowBelow : Bool) : Interval :=
  let unit := Nat.pow 2 (exponent - 2).toNat
  { low := (4 * significand - (if narrowBelow then 1 else 2)) * unit
    middle := 4 * significand * unit
    high := (4 * significand + 2) * unit
    scale := Nat.pow 2 (2 - exponent).toNat
    closed := significand % 2 == 0 }

/-- The interval of the magnitude of the number with these bits, which is finite and not zero. -/
def ofBits (bits : UInt64) : Interval :=
  let fraction : Nat := bits.toNat % Nat.pow 2 52
  let biased : Nat := bits.toNat / Nat.pow 2 52 % Nat.pow 2 11
  if biased = 0 then ofBinary fraction (-1074) false
  else ofBinary (Nat.pow 2 52 + fraction) ((biased : Int) - 1075) (fraction == 0 && biased != 1)

/-- Measure the interval in units of `10 ^ exponent`. -/
def rescale (i : Interval) (exponent : Int) : Interval :=
  let up := Nat.pow 10 (-exponent).toNat
  { i with
    low := i.low * up
    middle := i.middle * up
    high := i.high * up
    scale := i.scale * Nat.pow 10 exponent.toNat }

/-- Whether the whole number `n` lies in the interval. -/
def holds (i : Interval) (n : Nat) : Bool :=
  let point := n * i.scale
  if i.closed then decide (i.low ≤ point) && decide (point ≤ i.high)
  else decide (i.low < point) && decide (point < i.high)

/-- The whole number in the interval that is nearest to the middle, an even one on a tie. Only the
two neighbours of the middle can be it. -/
def nearest? (i : Interval) : Option Nat :=
  let below := i.middle / i.scale
  let left := i.middle - below * i.scale
  let right := i.scale - left
  let preferBelow := left < right || (left == right && below % 2 == 0)
  match i.holds below, i.holds (below + 1) with
  | true, true => some (if preferBelow then below else below + 1)
  | true, false => some below
  | false, true => some (below + 1)
  | false, false => none

/-- The exponent of the leading decimal digit of the middle. -/
def leading (i : Interval) : Int :=
  if i.scale ≤ i.middle then ((Nat.toDigits 10 (i.middle / i.scale)).length : Int) - 1
  else -((Nat.toDigits 10 (i.scale / i.middle)).length : Int)

/-- Try ever finer grids, at most `fuel` of them, until one has a point in the interval. -/
def search (i : Interval) : (fuel : Nat) → (exponent : Int) → Decimal
  | 0, exponent => ⟨(i.rescale exponent).middle / (i.rescale exponent).scale, exponent⟩
  | fuel + 1, exponent =>
    match (i.rescale exponent).nearest? with
    | some digits => ⟨digits, exponent⟩
    | none => search i fuel (exponent - 1)

/-- The shortest decimal in the interval. Seventeen digits always suffice for a fraction of 53
bits. -/
def shortest (i : Interval) : Decimal := i.search 17 i.leading

end Interval

/-- Move trailing zeros of the digits into the exponent. -/
def trim (d : Decimal) : Decimal :=
  let digits := Nat.toDigits 10 d.digits
  let zeros := (digits.reverse.takeWhile (· == '0')).length
  if d.digits = 0 then d else ⟨d.digits / Nat.pow 10 zeros, d.exponent + zeros⟩

/-- How decimals are written: positionally while the exponent of the leading digit lies between
`firstPlain` and `lastPlain`, and otherwise with an exponent. -/
structure Layout where
  firstPlain : Int
  lastPlain : Int

namespace Layout

/-- The digits, most significant first, with the point after the first `whole` of them; at least
one digit stands on each side. -/
def pointed (digits : List Char) (whole : Int) : List Char :=
  if whole ≤ 0 then '0' :: '.' :: (List.replicate (-whole).toNat '0' ++ digits)
  else if whole < digits.length then
    digits.take whole.toNat ++ '.' :: digits.drop whole.toNat
  else digits ++ List.replicate (whole - digits.length).toNat '0' ++ ['.', '0']

/-- One digit, the others after a point, and the exponent with its sign. -/
def scientific (digits : List Char) (exponent : Int) : List Char :=
  let mantissa := match digits with
    | [] => ['0']
    | [d] => [d]
    | d :: rest => d :: '.' :: rest
  mantissa ++ 'e' :: (if exponent < 0 then '-' else '+') :: Nat.toDigits 10 exponent.natAbs

/-- The text of a decimal without trailing zeros. -/
def write (layout : Layout) (d : Decimal) : List Char :=
  let digits := Nat.toDigits 10 d.digits
  let leading : Int := d.exponent + digits.length - 1
  if layout.firstPlain ≤ leading && leading ≤ layout.lastPlain then pointed digits (leading + 1)
  else scientific digits leading

end Layout

end Decimal

end WorkflowRepair
