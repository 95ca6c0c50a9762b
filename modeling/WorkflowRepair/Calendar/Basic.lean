/-!
# Dates, times and durations

The written forms of dates, times of day with an offset, and durations. All of them are ASCII text
of fixed fields.
-/

namespace WorkflowRepair.Calendar

/-- The number that a field of digits writes, none if the field holds anything else. -/
def field? (cs : List Char) : Option Nat :=
  if !cs.isEmpty && cs.all Char.isDigit then
    some (cs.foldl (fun n c => n * 10 + (c.toNat - 48)) 0)
  else none

/-- Whether a year has a leap day. -/
def isLeap (year : Nat) : Bool := year % 4 == 0 && (year % 100 != 0 || year % 400 == 0)

/-- The number of days of a month; no month has another number. -/
def daysIn (year month : Nat) : Nat :=
  if month = 2 then (if isLeap year then 29 else 28)
  else if month = 4 ∨ month = 6 ∨ month = 9 ∨ month = 11 then 30
  else if 1 ≤ month ∧ month ≤ 12 then 31
  else 0

/-- Whether a text is a date: year, month and day between hyphens. -/
def isDate (cs : List Char) : Bool :=
  match cs with
  | [y0, y1, y2, y3, '-', m0, m1, '-', d0, d1] =>
    match field? [y0, y1, y2, y3], field? [m0, m1], field? [d0, d1] with
    | some year, some month, some day => 1 ≤ day && day ≤ daysIn year month
    | _, _, _ => false
  | _ => false

/-- The minutes that an offset adds to universal time, none if the text is no offset. -/
def offset? : List Char → Option Int
  | ['Z'] => some 0
  | ['z'] => some 0
  | [sign, h0, h1, ':', m0, m1] =>
    match field? [h0, h1], field? [m0, m1] with
    | some hours, some minutes =>
      if hours ≤ 23 ∧ minutes ≤ 59 then
        if sign = '+' then some ((hours * 60 + minutes : Nat) : Int)
        else if sign = '-' then some (-((hours * 60 + minutes : Nat) : Int))
        else none
      else none
    | _, _ => none
  | _ => none

/-- The text behind a fraction of a second, none if a point stands without digits. -/
def afterFraction? : List Char → Option (List Char)
  | '.' :: rest => if (rest.takeWhile Char.isDigit).isEmpty then none
    else some (rest.dropWhile Char.isDigit)
  | rest => some rest

/-- Whether a text is a time of day with its offset. A leap second stands only at the end of the
last minute of a universal day. -/
def isTime (cs : List Char) : Bool :=
  match cs with
  | h0 :: h1 :: ':' :: m0 :: m1 :: ':' :: s0 :: s1 :: rest =>
    match field? [h0, h1], field? [m0, m1], field? [s0, s1], (afterFraction? rest).bind offset? with
    | some hour, some minute, some second, some offset =>
      hour ≤ 23 && minute ≤ 59 &&
        (second ≤ 59 || (second == 60 && ((hour * 60 + minute : Nat) - offset) % 1440 == 1439))
    | _, _, _, _ => false
  | _ => false

/-- Whether a text is a date and a time. -/
def isDateTime (cs : List Char) : Bool :=
  let isMark (c : Char) : Bool := c == 'T' || c == 't'
  isDate (cs.takeWhile fun c => !isMark c) && isTime ((cs.dropWhile fun c => !isMark c).drop 1)

/-- Whether a text is a row of counts, each with one of the units behind it, and the units in their
order. -/
def isCounts : (units : List Char) → (fuel : Nat) → List Char → Bool
  | _, 0, _ => false
  | _, _, [] => true
  | units, fuel + 1, cs =>
    match cs.takeWhile Char.isDigit, cs.dropWhile Char.isDigit with
    | _ :: _, unit :: rest =>
      units.contains unit && isCounts ((units.dropWhile (· != unit)).drop 1) fuel rest
    | _, _ => false

/-- Whether a text is a duration: weeks alone, or counts of the units of a date and, behind a mark,
of a time. -/
def isDuration (cs : List Char) : Bool :=
  match cs with
  | 'P' :: rest =>
    let date := rest.takeWhile (· != 'T')
    let time := rest.dropWhile (· != 'T')
    let dateFits := isCounts ['Y', 'M', 'D'] (rest.length + 1) date
    match time with
    | [] => !date.isEmpty && (dateFits || isCounts ['W'] (rest.length + 1) date)
    | _ :: time => dateFits && !time.isEmpty && isCounts ['H', 'M', 'S'] (rest.length + 1) time
  | _ => false

end WorkflowRepair.Calendar
