import TreeSchema.Number.Integer

/-!
# Dates and moments

A date is a day of the proleptic Gregorian calendar from year 1 to year 9999. A moment is a time of
a date, perhaps with its distance from universal time; two moments with a distance are the same when
they are the same instant (`Moment.instant`), and a moment with a distance is never the same as one
without.
-/

namespace TreeSchema

/-- The reasons why fields do not make a date or a moment. -/
inductive CalendarFault where
  | year (year : Nat)
  | month
  | day
  | hour
  | minute
  | second
  /-- The distance from universal time, in seconds, is a day or more. -/
  | distance (seconds : Int)
  deriving DecidableEq

/-- A day of the calendar. -/
structure Date where
  year : Nat
  month : Nat
  day : Nat
  deriving DecidableEq

/-- A time of a day. -/
structure Moment where
  date : Date
  hour : Nat
  minute : Nat
  second : Nat
  microsecond : Nat
  /-- The distance from universal time in seconds, if it is known. -/
  distance : Option Int
  deriving DecidableEq

/-- The decimal digits of a number, with zeros in front up to a width. -/
def padded (width n : Nat) : String :=
  let ds := decimalDigits n
  String.ofList (List.replicate (width - ds.length) '0' ++ ds)

namespace Date

/-- Whether a year has a leap day. -/
def isLeap (year : Nat) : Bool :=
  year % 4 = 0 && (year % 100 ≠ 0 || year % 400 = 0)

/-- The number of days of a month. -/
def daysIn (year month : Nat) : Nat :=
  if month = 2 then if isLeap year then 29 else 28
  else if month = 4 ∨ month = 6 ∨ month = 9 ∨ month = 11 then 30
  else 31

/-- The date with the given fields, if there is one. The first field out of its range is the
fault. -/
def make (year month day : Nat) : Except CalendarFault Date :=
  if year < 1 ∨ 9999 < year then .error (.year year)
  else if month < 1 ∨ 12 < month then .error .month
  else if day < 1 ∨ daysIn year month < day then .error .day
  else .ok ⟨year, month, day⟩

/-- The number of days before a date, counted from the first day of year 1. -/
def daysBefore (d : Date) : Nat :=
  let y := d.year - 1
  let months := ((List.range d.month).drop 1).map (daysIn d.year)
  y * 365 + y / 4 - y / 100 + y / 400 + months.foldl (· + ·) 0 + (d.day - 1)

/-- The text of a date. -/
def text (d : Date) : String :=
  padded 4 d.year ++ "-" ++ padded 2 d.month ++ "-" ++ padded 2 d.day

/-- The literal of a date. -/
def literal (d : Date) : String :=
  "datetime.date(" ++ ", ".intercalate ([d.year, d.month, d.day].map toString) ++ ")"

end Date

/-- The literal of a length of time in seconds: whole days, towards the past for a negative length,
and the seconds left. -/
def durationLiteral (seconds : Int) : String :=
  let days := Int.fdiv seconds 86400
  let left := Int.fmod seconds 86400
  let parts := (if days = 0 then [] else [s!"days={days}"]) ++
    (if left = 0 then [] else [s!"seconds={left}"])
  let inside := if parts.isEmpty then "0" else ", ".intercalate parts
  s!"datetime.timedelta({inside})"

/-- The wording of fields that make no date or moment. -/
def CalendarFault.message : CalendarFault → String
  | year y => s!"year {y} is out of range"
  | month => "month must be in 1..12"
  | day => "day is out of range for month"
  | hour => "hour must be in 0..23"
  | minute => "minute must be in 0..59"
  | second => "second must be in 0..59"
  | distance seconds =>
    let shown := durationLiteral seconds
    "offset must be a timedelta strictly between -timedelta(hours=24) and timedelta(hours=24), " ++
      s!"not {shown}."

namespace Moment

/-- The moment with the given fields, if there is one. The distance is looked at first, then the
date, then the time of the day. -/
def make (year month day hour minute second microsecond : Nat) (distance : Option Int) :
    Except CalendarFault Moment := do
  if let some s := distance then
    if 86400 ≤ s.natAbs then throw (.distance s)
  let date ← Date.make year month day
  if 23 < hour then throw .hour
  if 59 < minute then throw .minute
  if 59 < second then throw .second
  return ⟨date, hour, minute, second, microsecond, distance⟩

/-- The microseconds from the first day of year 1 to a moment, by its own clock. -/
def clock (m : Moment) : Int :=
  (((m.date.daysBefore * 24 + m.hour) * 60 + m.minute) * 60 + m.second) * 1000000 + m.microsecond

/-- The microseconds from the first day of year 1 to a moment in universal time, if its distance is
known. -/
def instant (m : Moment) : Option Int :=
  m.distance.map fun s => m.clock - s * 1000000

/-- The text of a distance from universal time. -/
def distanceText (seconds : Int) : String :=
  let n := seconds.natAbs
  let rest := if n % 60 = 0 then "" else ":" ++ padded 2 (n % 60)
  (if seconds < 0 then "-" else "+") ++ padded 2 (n / 3600) ++ ":" ++ padded 2 (n / 60 % 60) ++ rest

/-- The text of a moment. -/
def text (m : Moment) : String :=
  let fraction := if m.microsecond = 0 then "" else "." ++ padded 6 m.microsecond
  let distance := (m.distance.map distanceText).getD ""
  m.date.text ++ " " ++ padded 2 m.hour ++ ":" ++ padded 2 m.minute ++ ":" ++ padded 2 m.second ++
    fraction ++ distance

/-- The literal of a distance from universal time. -/
def distanceLiteral (seconds : Int) : String :=
  if seconds = 0 then "datetime.timezone.utc"
  else "datetime.timezone(" ++ durationLiteral seconds ++ ")"

/-- The literal of a moment. Seconds and microseconds are left out when nothing but zeros
follows. -/
def literal (m : Moment) : String :=
  let fields := [m.date.year, m.date.month, m.date.day, m.hour, m.minute] ++
    (if m.microsecond ≠ 0 then [m.second, m.microsecond]
      else if m.second ≠ 0 then [m.second] else [])
  let distance := m.distance.map fun s => "tzinfo=" ++ distanceLiteral s
  "datetime.datetime(" ++ ", ".intercalate (fields.map toString ++ distance.toList) ++ ")"

end Moment

end TreeSchema
