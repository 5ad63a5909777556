import DriveShell.Text.Basic

/-!
# The calendar

A clock counts seconds since midnight of 1 January 1970, without leap seconds.
`CivilTime.ofSeconds` breaks a count down into a Gregorian date, a time of day
and a weekday.

The date is found by walking: whole years are taken off the count of days until
the rest lies within a year, then whole months.  The weekday does not use the
date.  It is the count of days modulo seven, as 1 January 1970 was a Thursday.
-/

namespace DriveShell

/-- A day of the week. -/
inductive Weekday
  | sunday
  | monday
  | tuesday
  | wednesday
  | thursday
  | friday
  | saturday
deriving DecidableEq

namespace Weekday

/-- The weekday of a day counted from 1 January 1970. -/
def ofDay (day : Nat) : Weekday :=
  match (day + 4) % 7 with
  | 0 => .sunday
  | 1 => .monday
  | 2 => .tuesday
  | 3 => .wednesday
  | 4 => .thursday
  | 5 => .friday
  | _ => .saturday

/-- The first three letters of a weekday. -/
def abbreviation : Weekday → Text
  | .sunday => "Sun"
  | .monday => "Mon"
  | .tuesday => "Tue"
  | .wednesday => "Wed"
  | .thursday => "Thu"
  | .friday => "Fri"
  | .saturday => "Sat"

end Weekday

/-! ## Years and months -/

namespace Calendar

/-- Whether a year has a 29 February. -/
def isLeap (year : Nat) : Bool := (year % 4 = 0 && year % 100 ≠ 0) || year % 400 = 0

/-- The number of days of a year. -/
def daysOfYear (year : Nat) : Nat := if isLeap year then 366 else 365

/-- The numbers of days of the months of a year. -/
def monthLengths (year : Nat) : List Nat :=
  [31, if isLeap year then 29 else 28, 31, 30, 31, 30, 31, 31, 30, 31, 30, 31]

theorem daysOfYear_pos (year : Nat) : 0 < daysOfYear year := by
  unfold daysOfYear
  split <;> decide

/-- The year that a number of days after the start of `year` falls in, and the
days since its start. -/
def yearOf (year days : Nat) : Nat × Nat :=
  if daysOfYear year ≤ days then yearOf (year + 1) (days - daysOfYear year) else (year, days)
termination_by days
decreasing_by
  have := daysOfYear_pos year
  omega

/-- The month that a number of days after the start of month `month` falls in,
and the days since its start, along the lengths of the months that follow. -/
def monthOf (month days : Nat) : List Nat → Nat × Nat
  | [] => (month, days)
  | length :: lengths => if length ≤ days then monthOf (month + 1) (days - length) lengths
    else (month, days)

end Calendar

/-! ## Clock readings -/

/-- A date with its weekday, and a time of day. -/
structure CivilTime where
  /-- The year. -/
  year : Nat
  /-- The month, from one. -/
  month : Nat
  /-- The day of the month, from one. -/
  day : Nat
  /-- The hour, from zero. -/
  hour : Nat
  /-- The minute, from zero. -/
  minute : Nat
  /-- The second, from zero. -/
  second : Nat
  /-- The day of the week. -/
  weekday : Weekday
deriving DecidableEq

namespace CivilTime

/-- The date and time a number of seconds after the start of 1970. -/
def ofSeconds (seconds : Nat) : CivilTime :=
  let days := seconds / 86400
  let rest := seconds % 86400
  let (year, dayOfYear) := Calendar.yearOf 1970 days
  let (month, dayOfMonth) := Calendar.monthOf 1 dayOfYear (Calendar.monthLengths year)
  { year := year
    month := month
    day := dayOfMonth + 1
    hour := rest / 3600
    minute := rest % 3600 / 60
    second := rest % 60
    weekday := .ofDay days }

/-- The hour on a dial of twelve, with its half of the day. -/
def twelveHour (t : CivilTime) : Nat × Text :=
  if t.hour = 0 then (12, "AM")
  else if t.hour < 12 then (t.hour, "AM")
  else if t.hour = 12 then (12, "PM")
  else (t.hour - 12, "PM")

/-- The month, the day and the year. -/
def dateText (t : CivilTime) : Text :=
  Text.join ['/'] [Text.zeroPadded 2 t.month, Text.zeroPadded 2 t.day, Text.zeroPadded 4 t.year]

/-- The weekday and the date, as in `Fri 10/16/2026`. -/
def dateLine (t : CivilTime) : Text := t.weekday.abbreviation ++ ' ' :: t.dateText

/-- The time of day, as in `03:04:05 PM`. -/
def timeLine (t : CivilTime) : Text :=
  let (hour, half) := t.twelveHour
  Text.join [':'] [Text.zeroPadded 2 hour, Text.zeroPadded 2 t.minute, Text.zeroPadded 2 t.second]
    ++ ' ' :: half

/-- The date and the time to the minute, as in `10/16/2026  03:04 PM`. -/
def stamp (t : CivilTime) : Text :=
  let (hour, half) := t.twelveHour
  t.dateText ++ "  " ++ Text.join [':'] [Text.zeroPadded 2 hour, Text.zeroPadded 2 t.minute]
    ++ ' ' :: half

/-- The date and the time with the greatest unit first, as in `2026-10-16 15:04:05`. -/
def text (t : CivilTime) : Text :=
  Text.join ['-'] [Text.zeroPadded 4 t.year, Text.zeroPadded 2 t.month, Text.zeroPadded 2 t.day]
    ++ ' ' ::
    Text.join [':'] [Text.zeroPadded 2 t.hour, Text.zeroPadded 2 t.minute, Text.zeroPadded 2 t.second]

/-! ## Checks by evaluation -/

example : Calendar.monthOf 1 59 (Calendar.monthLengths 2000) = (2, 28) := by decide
example : Calendar.monthOf 1 59 (Calendar.monthLengths 2001) = (3, 0) := by decide
example : (ofSeconds 0).text = "1970-01-01 00:00:00".toList := by cbv
example : (ofSeconds 1792163045).stamp = "10/16/2026  03:04 PM".toList := by cbv

end CivilTime

end DriveShell
