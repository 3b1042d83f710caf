import DocTree.Number.Radix

/-!
# Dates and points in time

A moment is a date, or a date with a time of day and possibly an offset from the zero meridian. It is
written as a text of its own (`Moment.text`), and inside a list or a mapping by the parts that it is made
of (`Moment.shown`).
-/

namespace DocTree

/-- A date, and the time of day if there is one. -/
structure Moment where
  year : Nat
  month : Nat
  day : Nat
  /-- Hour, minute, second and millionths of a second. -/
  clock : Option (Nat × Nat × Nat × Nat)
  /-- Minutes east of the zero meridian. -/
  offset : Option Int
  deriving DecidableEq, Repr

/-- A number with zeros in front, up to a width. -/
def padded (width n : Nat) : String :=
  let ds := Nat.toDigits 10 n
  String.ofList (List.replicate (width - ds.length) '0' ++ ds)

/-- An offset as sign, hours and minutes. -/
def offsetText (minutes : Int) : String :=
  (if minutes < 0 then "-" else "+") ++ padded 2 (minutes.natAbs / 60) ++ ":" ++
    padded 2 (minutes.natAbs % 60)

/-- A duration of minutes, less than a day in either direction, as whole days and the seconds after
them. -/
def durationShown (minutes : Int) : String :=
  if minutes < 0 then
    "datetime.timedelta(days=-1, seconds=" ++ toString (60 * (24 * 60 + minutes)) ++ ")"
  else "datetime.timedelta(seconds=" ++ toString (60 * minutes) ++ ")"

/-- An offset by the duration that it is. -/
def offsetShown (minutes : Int) : String :=
  if minutes == 0 then "datetime.timezone.utc" else "datetime.timezone(" ++ durationShown minutes ++ ")"

namespace Moment

/-- The text of a moment: the date, and the time behind a space, with six digits of a fraction of a
second if there is one that is not zero, and with the offset if there is one. -/
def text (m : Moment) : String :=
  padded 4 m.year ++ "-" ++ padded 2 m.month ++ "-" ++ padded 2 m.day ++
    (match m.clock with
    | none => ""
    | some (hour, minute, second, micro) =>
      " " ++ padded 2 hour ++ ":" ++ padded 2 minute ++ ":" ++ padded 2 second ++
        (if micro == 0 then "" else "." ++ padded 6 micro)) ++
    (m.offset.map offsetText).getD ""

/-- The parts of a moment, without the millionths of a second if they are zero, and without the seconds
if they are zero, too. -/
def parts (m : Moment) : List Nat :=
  [m.year, m.month, m.day] ++
    match m.clock with
    | none => []
    | some (hour, minute, second, micro) =>
      if micro != 0 then [hour, minute, second, micro]
      else if second != 0 then [hour, minute, second]
      else [hour, minute]

/-- A moment by its parts. -/
def shown (m : Moment) : String :=
  (if m.clock.isSome then "datetime.datetime(" else "datetime.date(") ++
    ", ".intercalate (m.parts.map toString ++ (m.offset.map fun o => "tzinfo=" ++ offsetShown o).toList) ++
    ")"

/-- A moment in an afternoon, with and without the time of day. -/
example : (Moment.mk 2020 1 2 (some (15, 4, 0, 0)) (some (-90))).shown =
      "datetime.datetime(2020, 1, 2, 15, 4, tzinfo=" ++
        "datetime.timezone(datetime.timedelta(days=-1, seconds=81000)))" ∧
    (Moment.mk 2020 1 2 none none).shown = "datetime.date(2020, 1, 2)" := by
  decide +kernel

end Moment

end DocTree
