import DocTree.Text.Blank
import DocTree.Value.Moment

/-!
# Dates and times

A scalar that looks like a date, or like a date with a time of day, is one, provided that the calendar
has it. A date is written as four, two and two digits; in front of a time of day its month and its day
may have one digit. Behind a time of day there may be an offset from the zero meridian.
-/

namespace DocTree.Yaml

/-- Why a moment cannot be. -/
inductive MomentFault where
  | year (n : Nat)
  | month
  | day
  | hour
  | minute
  | second
  | offset (minutes : Int)
  deriving DecidableEq, Repr

/-! ## The calendar -/

/-- Every fourth year is a leap year, of the centuries only every fourth. -/
def isLeap (year : Nat) : Bool := year % 4 == 0 && (year % 100 != 0 || year % 400 == 0)

/-- The number of days of a month. -/
def daysIn (year month : Nat) : Nat :=
  if month == 2 then (if isLeap year then 29 else 28)
  else if month == 4 || month == 6 || month == 9 || month == 11 then 30
  else 31

/-- The first thing that is wrong with a moment. -/
def momentFault? (m : Moment) : Option MomentFault :=
  let (hour, minute, second, _) := m.clock.getD (0, 0, 0, 0)
  match m.offset with
  | some o => if o ≤ -1440 || 1440 ≤ o then some (.offset o) else rest hour minute second
  | none => rest hour minute second
where
  rest (hour minute second : Nat) : Option MomentFault :=
    if m.year == 0 then some (.year m.year)
    else if m.month == 0 || 12 < m.month then some .month
    else if m.day == 0 || daysIn m.year m.month < m.day then some .day
    else if 23 < hour then some .hour
    else if 59 < minute then some .minute
    else if 59 < second then some .second
    else none

/-- A fault in words. -/
def MomentFault.message : MomentFault → String
  | .year n => "year " ++ toString n ++ " is out of range"
  | .month => "month must be in 1..12"
  | .day => "day is out of range for month"
  | .hour => "hour must be in 0..23"
  | .minute => "minute must be in 0..59"
  | .second => "second must be in 0..59"
  | .offset _ => "offset must be less than a day"

/-! ## Reading -/

/-- A number with a given count of digits, or one of two counts, the longer one if possible. -/
def digits? (least most : Nat) (s : List Char) : Option (Nat × List Char) :=
  let ds := (s.take most).takeWhile isAsciiDigit
  if ds.length < least then none else some (ofDigits ds, s.drop ds.length)

/-- What follows a character. -/
def past? (c : Char) : List Char → Option (List Char)
  | d :: rest => if c == d then some rest else none
  | [] => none

/-- A space or a tab. -/
def isGap (c : Char) : Bool := c == ' ' || c == '\t'

/-- The offset from the zero meridian that ends a time, if there is one. -/
def offset? (s : List Char) : Option (Option Int) :=
  match s with
  | [] => some none
  | ['Z'] => some (some 0)
  | sign :: rest =>
    if sign == '+' || sign == '-' then do
      let (hours, rest) ← digits? 1 2 rest
      let minutes ← match rest with
        | [] => some 0
        | ':' :: rest => do
          let (m, rest) ← digits? 2 2 rest
          if rest.isEmpty then some m else none
        | _ => none
      let east : Int := 60 * hours + minutes
      return some (if sign == '-' then -east else east)
    else none

/-- The millionths of a second that the digits of a fraction write. -/
def millionths (ds : List Char) : Nat := ofDigits ((ds ++ List.replicate 6 '0').take 6)

/-- A time of day with its offset. -/
def clock? (s : List Char) : Option ((Nat × Nat × Nat × Nat) × Option Int) := do
  let (hour, s) ← digits? 1 2 s
  let s ← past? ':' s
  let (minute, s) ← digits? 2 2 s
  let s ← past? ':' s
  let (second, s) ← digits? 2 2 s
  let (fraction, s) := match s with
    | '.' :: rest => (rest.takeWhile isAsciiDigit, rest.dropWhile isAsciiDigit)
    | _ => ([], s)
  let offset ← match s.dropWhile isGap with
    | [] => if s.isEmpty then some none else none
    | rest => offset? rest
  return ((hour, minute, second, millionths fraction), offset)

/-- The moment that a text looks like. -/
def moment? (s : List Char) : Option Moment := do
  let (year, s) ← digits? 4 4 s
  let s ← past? '-' s
  let (month, monthRest) ← digits? 1 2 s
  let rest ← past? '-' monthRest
  let (day, dayRest) ← digits? 1 2 rest
  match dayRest with
  | [] =>
    if s.length == 5 then return ⟨year, month, day, none, none⟩ else none
  | c :: after =>
    let time ← if c == 'T' || c == 't' then some after
      else if isGap c then some (after.dropWhile isGap)
      else none
    let (clock, offset) ← clock? time
    return ⟨year, month, day, some clock, offset⟩

end DocTree.Yaml
