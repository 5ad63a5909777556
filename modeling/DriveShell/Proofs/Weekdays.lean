import DriveShell.Proofs.MachineClock

/-!
# The weekday of a date

A clock reading takes its weekday from the count of days alone, and its date from a walk over years
and months.  Zeller's congruence and Sakamoto's rule go the other way: each finds the weekday of a
date from its year, month and day.

Both are a day number modulo seven.  A century has 36524 days, five more than whole weeks, and a
year has 365, one more, so that of the day number of a date only what the rules add up is left
(`zeller_eq`, `sakamoto_eq`).  The date of a reading has the count of days as its day number, and
so the two ways meet.
-/

namespace DriveShell

namespace Weekday

/-- The number of a weekday, counted from Sunday. -/
def fromSunday : Weekday → Int
  | .sunday => 0
  | .monday => 1
  | .tuesday => 2
  | .wednesday => 3
  | .thursday => 4
  | .friday => 5
  | .saturday => 6

/-- The number of a weekday, counted from Saturday. -/
def fromSaturday : Weekday → Int
  | .saturday => 0
  | .sunday => 1
  | .monday => 2
  | .tuesday => 3
  | .wednesday => 4
  | .thursday => 5
  | .friday => 6

theorem fromSaturday_eq (weekday : Weekday) :
    weekday.fromSaturday = (weekday.fromSunday + 1) % 7 := by
  cases weekday <;> decide

theorem fromSunday_ofDay (day : Nat) : (ofDay day).fromSunday = ((day : Int) + 4) % 7 := by
  have hlt : (day + 4) % 7 < 7 := Nat.mod_lt _ (by decide)
  have hcast : ((day : Int) + 4) % 7 = ((day + 4) % 7 : Nat) := by omega
  rw [ofDay, hcast]
  generalize (day + 4) % 7 = residue at hlt
  interval_cases residue <;> rfl

end Weekday

namespace Calendar

/-! ## The rules -/

/-- Zeller's congruence: the number of the weekday of a date, counted from Saturday.  January and
February are months 13 and 14 of the year before. -/
def zeller (year month day : Nat) : Int :=
  let y : Int := if month ≤ 2 then year - 1 else year
  let m : Int := if month ≤ 2 then month + 12 else month
  let century := y / 100
  let inCentury := y % 100
  (day + 13 * (m + 1) / 5 + inCentury + inCentury / 4 + century / 4 - 2 * century) % 7

/-- The numbers that Sakamoto's rule adds for the months. -/
def monthOffsets : List Int := [0, 3, 2, 5, 0, 3, 5, 1, 4, 6, 2, 4]

/-- Sakamoto's rule: the number of the weekday of a date, counted from Sunday. -/
def sakamoto (year month day : Nat) : Int :=
  let y : Int := if month < 3 then year - 1 else year
  (y + y / 4 - y / 100 + y / 400 + monthOffsets.getD (month - 1) 0 + day) % 7

/-! ## Day numbers modulo seven -/

/-- The leap days before a year, by its century and its year of the century. -/
theorem leapDays_eq_century (y : Int) :
    y / 4 - y / 100 + y / 400 = 24 * (y / 100) + y % 100 / 4 + y / 100 / 4 := by
  have hfour : y / 4 = 25 * (y / 100) + y % 100 / 4 := by omega
  have hfourHundred : y / 400 = y / 100 / 4 := by omega
  omega

variable {month : Nat}

/-- Sakamoto's numbers are the days of the year that begins with March, modulo seven. -/
theorem monthOffsets_getD (first : 1 ≤ month) (last : month ≤ 12) :
    monthOffsets.getD (month - 1) 0 = ((153 * ((month + 9) % 12 : Nat) + 2) / 5 + 2 : Int) % 7 := by
  interval_cases month <;> rfl

theorem zeller_eq (first : 1 ≤ month) (last : month ≤ 12) (year day : Nat) :
    zeller year month day = (dayNumber year month day + 5) % 7 := by
  by_cases h : month ≤ 2
  · rw [dayNumber_early h]
    simp only [zeller, if_pos h]
    have := leapDays_eq_century (year - 1)
    interval_cases month <;> omega
  · rw [dayNumber_late h]
    simp only [zeller, if_neg h]
    have := leapDays_eq_century year
    interval_cases month <;> omega

theorem sakamoto_eq (first : 1 ≤ month) (last : month ≤ 12) (year day : Nat) :
    sakamoto year month day = (dayNumber year month day + 4) % 7 := by
  rw [sakamoto, monthOffsets_getD first last]
  by_cases h : month ≤ 2
  · rw [dayNumber_early h, if_pos (Nat.lt_succ_of_le h)]
    interval_cases month <;> omega
  · rw [dayNumber_late h, if_neg (mt Nat.le_of_lt_succ h)]
    interval_cases month <;> omega

end Calendar

/-! ## Readings -/

namespace CivilTime

/-- The weekday of a reading, by the rules for its date. -/
theorem weekday_ofSeconds (seconds : Nat) :
    let t := ofSeconds seconds
    t.weekday.fromSaturday = Calendar.zeller t.year t.month t.day ∧
      t.weekday.fromSunday = Calendar.sakamoto t.year t.month t.day := by
  intro t
  obtain ⟨hdate, hnumber⟩ := date_ofSeconds seconds
  have hsunday : t.weekday.fromSunday = ((seconds / 86400 : Nat) + 4 : Int) % 7 :=
    Weekday.fromSunday_ofDay _
  rw [Calendar.zeller_eq hdate.month_pos hdate.month_le,
    Calendar.sakamoto_eq hdate.month_pos hdate.month_le, hnumber, Weekday.fromSaturday_eq, hsunday]
  constructor
  · omega
  · rfl

end CivilTime

namespace Reading

/-- Before midnight of 1 January 65536, the weekday of a reading is the one that Zeller's
congruence and Sakamoto's rule give for its date. -/
theorem weekday_of_date (seconds : BitVec 64)
    (h : (seconds.toNat : Int) < CivilTime.midnight 65536) :
    ∃ r, ofSeconds seconds = some r ∧ r.widen = CivilTime.ofSeconds seconds.toNat ∧
      r.weekday.fromSaturday = Calendar.zeller r.year.toNat r.month.toNat r.day.toNat ∧
      r.weekday.fromSunday = Calendar.sakamoto r.year.toNat r.month.toNat r.day.toNat := by
  obtain ⟨r, hr, hwiden⟩ := exists_ofSeconds_of_lt_midnight h
  have hrules := CivilTime.weekday_ofSeconds seconds.toNat
  rw [← hwiden] at hrules
  exact ⟨r, hr, hwiden, hrules⟩

/-- The leap day of 2000, the last year of a cycle of 400. -/
theorem weekday_of_date_leap_day :
    ((951782400#64).toNat : Int) < CivilTime.midnight 65536 ∧
    ∃ r, ofSeconds 951782400#64 = some r ∧
      r.widen = CivilTime.ofSeconds (951782400#64).toNat ∧
      r.weekday.fromSaturday = Calendar.zeller r.year.toNat r.month.toNat r.day.toNat ∧
      r.weekday.fromSunday = Calendar.sakamoto r.year.toNat r.month.toNat r.day.toNat := by
  have hbefore : ((951782400#64).toNat : Int) < CivilTime.midnight 65536 := by decide
  exact ⟨hbefore, weekday_of_date _ hbefore⟩

end Reading

end DriveShell
