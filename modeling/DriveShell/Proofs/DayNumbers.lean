import Mathlib.Tactic.IntervalCases
import DriveShell.Calendar

/-!
# Day numbers

A closed formula gives the number of a day, counted from 1 January 1970 along the Gregorian
calendar without a beginning or an end (`dayNumber`).  It knows nothing of a walk over years and
months.  It lets a year begin with March, so that a 29 February is the last day of a year, and the
leap rule is no more than three quotients of the year.

The formula and the walk agree.  The invariant of the walk is that the day number of what has been
walked over and the days that are left make up the same number all along (`yearOf_spec`,
`monthOf_spec`).  A clock reading is therefore a date of the calendar with a time of day, and the
formula gives the seconds back (`valid_ofSeconds`, `count_ofSeconds`).

Days are numbered in the order of their dates, so that different dates have different numbers
(`dayNumber_inj`).  A date and a time of day from 1970 on are therefore what the walk finds for
their seconds (`Valid.ofSeconds_count`).
-/

namespace DriveShell

namespace Calendar

/-- The number of days of a month, with the leap rule of the Gregorian calendar. -/
def monthLength (year : Nat) : Nat → Nat
  | 2 => if 4 ∣ year ∧ (100 ∣ year → 400 ∣ year) then 29 else 28
  | 4 | 6 | 9 | 11 => 30
  | _ => 31

/-- A year, a month and a day that are a date of the Gregorian calendar. -/
structure IsDate (year month day : Nat) : Prop where
  /-- Months are counted from one. -/
  month_pos : 1 ≤ month
  /-- There are twelve months. -/
  month_le : month ≤ 12
  /-- Days are counted from one. -/
  day_pos : 1 ≤ day
  /-- The month has that many days. -/
  day_le : day ≤ monthLength year month

instance (year month day : Nat) : Decidable (IsDate year month day) :=
  decidable_of_iff (1 ≤ month ∧ month ≤ 12 ∧ 1 ≤ day ∧ day ≤ monthLength year month)
    ⟨fun ⟨hfirst, hlast, hpos, hle⟩ => ⟨hfirst, hlast, hpos, hle⟩,
      fun ⟨hfirst, hlast, hpos, hle⟩ => ⟨hfirst, hlast, hpos, hle⟩⟩

/-- The number of a date, counted from 1 January 1970.  January and February belong to the year
before, and the months are numbered from March. -/
def dayNumber (year month day : Nat) : Int :=
  let y : Int := if month ≤ 2 then year - 1 else year
  let m : Int := if month ≤ 2 then month + 9 else month - 3
  365 * y + y / 4 - y / 100 + y / 400 + (153 * m + 2) / 5 + day - 719469

/-! ## The formula counts days -/

theorem dayNumber_epoch : dayNumber 1970 1 1 = 0 := by decide

theorem dayNumber_early {month : Nat} (h : month ≤ 2) (year day : Nat) :
    dayNumber year month day =
      365 * (year - 1 : Int) + (year - 1 : Int) / 4 - (year - 1 : Int) / 100 +
        (year - 1 : Int) / 400 + (153 * (month + 9 : Int) + 2) / 5 + day - 719469 := by
  simp only [dayNumber, if_pos h]

theorem dayNumber_late {month : Nat} (h : ¬month ≤ 2) (year day : Nat) :
    dayNumber year month day =
      365 * (year : Int) + (year : Int) / 4 - (year : Int) / 100 +
        (year : Int) / 400 + (153 * (month - 3 : Int) + 2) / 5 + day - 719469 := by
  simp only [dayNumber, if_neg h]

theorem dayNumber_add (year month day later : Nat) :
    dayNumber year month (day + later) = dayNumber year month day + later := by
  simp only [dayNumber]
  omega

theorem isLeap_iff (year : Nat) :
    isLeap year = true ↔ 4 ∣ year ∧ (100 ∣ year → 400 ∣ year) := by
  simp only [isLeap, Bool.or_eq_true, Bool.and_eq_true, decide_eq_true_eq]
  omega

/-- The years that begin with March grow by the leap day of the year in between. -/
theorem leapDays (year : Nat) :
    (year : Int) / 4 - (year : Int) / 100 + (year : Int) / 400 =
      (year - 1 : Int) / 4 - (year - 1 : Int) / 100 + (year - 1 : Int) / 400 +
        if 4 ∣ year ∧ (100 ∣ year → 400 ∣ year) then 1 else 0 := by
  split
  next h => omega
  next h => omega

theorem monthLength_february (year : Nat) :
    (monthLength year 2 : Int) =
      28 + if 4 ∣ year ∧ (100 ∣ year → 400 ∣ year) then 1 else 0 := by
  rw [monthLength]
  split
  next => rfl
  next => rfl

/-- A month begins when the one before is over. -/
theorem dayNumber_month {month : Nat} (year : Nat) (first : 1 ≤ month) (last : month < 12) :
    dayNumber year (month + 1) 1 = dayNumber year month 1 + monthLength year month := by
  rcases lt_trichotomy month 2 with hbefore | rfl | hafter
  · have hmonth : month = 1 := by omega
    subst hmonth
    rw [dayNumber_early le_rfl, dayNumber_early one_le_two]
    simp only [monthLength]
    omega
  · rw [dayNumber_late (by omega), dayNumber_early le_rfl, monthLength_february]
    have := leapDays year
    omega
  · rw [dayNumber_late (by omega), dayNumber_late (by omega)]
    interval_cases month <;> simp only [monthLength] <;> omega

theorem daysOfYear_eq (year : Nat) :
    (daysOfYear year : Int) = 365 + if 4 ∣ year ∧ (100 ∣ year → 400 ∣ year) then 1 else 0 := by
  simp only [daysOfYear, isLeap_iff]
  split
  next => rfl
  next => rfl

theorem daysOfYear_le (year : Nat) : daysOfYear year ≤ 366 := by
  unfold daysOfYear
  split
  next => exact le_rfl
  next => decide

/-- A year begins when the one before is over. -/
theorem dayNumber_year (year : Nat) :
    dayNumber (year + 1) 1 1 = dayNumber year 1 1 + daysOfYear year := by
  rw [dayNumber_early one_le_two, dayNumber_early one_le_two, daysOfYear_eq]
  have := leapDays year
  omega

/-- A later year begins on a later day. -/
theorem dayNumber_year_mono {year later : Nat} (h : year ≤ later) :
    dayNumber year 1 1 ≤ dayNumber later 1 1 := by
  induction later, h using Nat.le_induction with
  | base => exact le_rfl
  | succ later _ ih => exact ih.trans (by rw [dayNumber_year]; omega)

/-! ## Dates in their order -/

theorem monthLength_le (year month : Nat) : monthLength year month ≤ 31 := by
  unfold monthLength
  repeat' split
  all_goals decide

/-- A later month of a year begins on a later day. -/
theorem dayNumber_month_mono {month later : Nat} (year : Nat) (first : 1 ≤ month)
    (h : month ≤ later) (last : later ≤ 12) : dayNumber year month 1 ≤ dayNumber year later 1 := by
  induction later, h using Nat.le_induction with
  | base => exact le_rfl
  | succ later hlater ih =>
    rw [dayNumber_month year (first.trans hlater) last]
    have := ih (by omega)
    omega

/-- December is the last month. -/
theorem dayNumber_december (year : Nat) :
    dayNumber (year + 1) 1 1 = dayNumber year 12 1 + monthLength year 12 := by
  rw [dayNumber_early one_le_two, dayNumber_late (by omega)]
  simp only [monthLength]
  omega

namespace IsDate

variable {year month day year' month' day' : Nat}

/-- A day lies in its month. -/
theorem mem_month (h : IsDate year month day) :
    dayNumber year month 1 ≤ dayNumber year month day ∧
      dayNumber year month day < dayNumber year month 1 + monthLength year month := by
  have hpos := h.day_pos
  have hle := h.day_le
  have hday : dayNumber year month day = dayNumber year month 1 + (day - 1 : Nat) := by
    rw [← dayNumber_add, Nat.add_sub_cancel' hpos]
  omega

/-- A day lies in its year. -/
theorem mem_year (h : IsDate year month day) :
    dayNumber year 1 1 ≤ dayNumber year month day ∧
      dayNumber year month day < dayNumber (year + 1) 1 1 := by
  obtain ⟨hfrom, hto⟩ := h.mem_month
  have hjanuary := dayNumber_month_mono year le_rfl h.month_pos h.month_le
  refine ⟨hjanuary.trans hfrom, ?_⟩
  rcases h.month_le.eq_or_lt with rfl | hmonth
  · rwa [dayNumber_december]
  · have hnext := dayNumber_month year h.month_pos hmonth
    have hdecember := dayNumber_month_mono year (Nat.le_add_left 1 month) hmonth le_rfl
    have hyear := dayNumber_december year
    omega

theorem lt_of_year (h : IsDate year month day) (h' : IsDate year' month' day')
    (hlt : year < year') : dayNumber year month day < dayNumber year' month' day' :=
  calc dayNumber year month day < dayNumber (year + 1) 1 1 := h.mem_year.2
    _ ≤ dayNumber year' 1 1 := dayNumber_year_mono hlt
    _ ≤ dayNumber year' month' day' := h'.mem_year.1

theorem lt_of_month (h : IsDate year month day) (h' : IsDate year month' day')
    (hlt : month < month') : dayNumber year month day < dayNumber year month' day' :=
  calc dayNumber year month day < dayNumber year month 1 + monthLength year month := h.mem_month.2
    _ = dayNumber year (month + 1) 1 :=
      (dayNumber_month year h.month_pos (hlt.trans_le h'.month_le)).symm
    _ ≤ dayNumber year month' 1 :=
      dayNumber_month_mono year (Nat.le_add_left 1 month) hlt h'.month_le
    _ ≤ dayNumber year month' day' := h'.mem_month.1

/-- Days are numbered in the order of their dates. -/
theorem dayNumber_lt_iff (h : IsDate year month day) (h' : IsDate year' month' day') :
    dayNumber year month day < dayNumber year' month' day' ↔
      year < year' ∨ year = year' ∧ (month < month' ∨ month = month' ∧ day < day') := by
  rcases lt_trichotomy year year' with hyear | rfl | hyear
  · simp [hyear, h.lt_of_year h' hyear]
  · rcases lt_trichotomy month month' with hmonth | rfl | hmonth
    · simp [hmonth, h.lt_of_month h' hmonth]
    · simp [dayNumber]
    · simp [hmonth.not_gt, hmonth.ne', (h'.lt_of_month h hmonth).not_gt]
  · simp [hyear.not_gt, hyear.ne', (h'.lt_of_year h hyear).not_gt]

end IsDate

/-- Dates with one number are one date. -/
theorem dayNumber_inj {year month day year' month' day' : Nat} (h : IsDate year month day)
    (h' : IsDate year' month' day') (heq : dayNumber year month day = dayNumber year' month' day') :
    year = year' ∧ month = month' ∧ day = day' := by
  rcases lt_trichotomy year year' with hyear | rfl | hyear
  · exact absurd heq (h.lt_of_year h' hyear).ne
  · rcases lt_trichotomy month month' with hmonth | rfl | hmonth
    · exact absurd heq (h.lt_of_month h' hmonth).ne
    · simp only [dayNumber] at heq
      omega
    · exact absurd heq (h'.lt_of_month h hmonth).ne'
  · exact absurd heq (h'.lt_of_year h hyear).ne'

/-! ## The walk -/

/-- What a walk over years has gone over and what is left make up what there was, and less than a
year is left. -/
theorem yearOf_spec (year days : Nat) :
    dayNumber (yearOf year days).1 1 1 + (yearOf year days).2 = dayNumber year 1 1 + days ∧
      (yearOf year days).2 < daysOfYear (yearOf year days).1 ∧ year ≤ (yearOf year days).1 := by
  fun_induction yearOf year days with
  | case1 year days hover ih =>
    obtain ⟨hnumber, hleft, hlater⟩ := ih
    refine ⟨?_, hleft, by omega⟩
    rw [hnumber, dayNumber_year]
    omega
  | case2 year days hwithin => exact ⟨rfl, Nat.lt_of_not_le hwithin, le_rfl⟩

/-- A whole year is walked over. -/
theorem yearOf_add (year days : Nat) :
    yearOf year (daysOfYear year + days) = yearOf (year + 1) days := by
  rw [yearOf, if_pos (Nat.le_add_right _ _), Nat.add_sub_cancel_left]

theorem monthLengths_eq (year : Nat) :
    monthLengths year = (List.range' 1 12).map (monthLength year) := by
  simp [monthLengths, List.range', monthLength, isLeap_iff]

theorem sum_monthLengths (year : Nat) : (monthLengths year).sum = daysOfYear year := by
  rw [monthLengths, daysOfYear]
  split
  next => rfl
  next => rfl

/-- What a walk over months has gone over and what is left make up what there was, and less than
a month is left. -/
theorem monthOf_spec (year month days count : Nat) (first : 1 ≤ month) (last : month + count ≤ 13)
    (h : days < ((List.range' month count).map (monthLength year)).sum) :
    let walked := monthOf month days ((List.range' month count).map (monthLength year))
    dayNumber year walked.1 1 + walked.2 = dayNumber year month 1 + days ∧
      walked.2 < monthLength year walked.1 ∧ month ≤ walked.1 ∧ walked.1 ≤ 12 := by
  induction count generalizing month days with
  | zero => exact absurd h (Nat.not_lt_zero days)
  | succ count ih =>
    rw [List.range'_succ, List.map_cons, List.sum_cons] at h
    rw [List.range'_succ, List.map_cons, monthOf]
    split
    next hover =>
      have hmonth : month < 12 := by
        by_contra hlast
        have hcount : count = 0 := by omega
        subst hcount
        simp only [List.range'_zero, List.map_nil, List.sum_nil] at h
        omega
      obtain ⟨hnumber, hleft, hlater, hyear⟩ :=
        ih (month + 1) (days - monthLength year month) (by omega) (by omega) (by omega)
      refine ⟨?_, hleft, by omega, hyear⟩
      rw [hnumber, dayNumber_month year first hmonth]
      omega
    next hwithin => exact ⟨rfl, Nat.lt_of_not_le hwithin, le_rfl, by omega⟩

/-- A walk over the months of a year from its first day. -/
theorem monthOf_january {year days : Nat} (h : days < daysOfYear year) :
    let walked := monthOf 1 days (monthLengths year)
    dayNumber year walked.1 1 + walked.2 = dayNumber year 1 1 + days ∧
      walked.2 < monthLength year walked.1 ∧ 1 ≤ walked.1 ∧ walked.1 ≤ 12 := by
  rw [← sum_monthLengths, monthLengths_eq] at h
  rw [monthLengths_eq]
  exact monthOf_spec year 1 days 12 le_rfl le_rfl h

end Calendar

namespace CivilTime

open Calendar (dayNumber IsDate monthLength)

/-- A reading is a date of the calendar with a time of day. -/
structure Valid (t : CivilTime) : Prop where
  /-- Its date is one of the calendar. -/
  date : IsDate t.year t.month t.day
  /-- A day has 24 hours. -/
  hour_lt : t.hour < 24
  /-- An hour has 60 minutes. -/
  minute_lt : t.minute < 60
  /-- A minute has 60 seconds. -/
  second_lt : t.second < 60

/-- The number of seconds from the start of 1970 to a reading. -/
def count (t : CivilTime) : Int :=
  dayNumber t.year t.month t.day * 86400 + t.hour * 3600 + t.minute * 60 + t.second

/-- The number of seconds from the start of 1970 to the first midnight of a year. -/
def midnight (year : Nat) : Int := dayNumber year 1 1 * 86400

/-- The date of a reading is found by the two walks. -/
theorem date_ofSeconds (seconds : Nat) :
    IsDate (ofSeconds seconds).year (ofSeconds seconds).month (ofSeconds seconds).day ∧
      dayNumber (ofSeconds seconds).year (ofSeconds seconds).month (ofSeconds seconds).day =
        (seconds / 86400 : Nat) := by
  obtain ⟨hyear, hwithin, -⟩ := Calendar.yearOf_spec 1970 (seconds / 86400)
  obtain ⟨hmonth, hleft, hfirst, hlast⟩ := Calendar.monthOf_january hwithin
  refine ⟨⟨hfirst, hlast, Nat.le_add_left 1 _, hleft⟩, ?_⟩
  simp only [ofSeconds]
  rw [Nat.add_comm, Calendar.dayNumber_add, hmonth, hyear, Calendar.dayNumber_epoch, zero_add]

theorem valid_ofSeconds (seconds : Nat) : (ofSeconds seconds).Valid := by
  refine ⟨(date_ofSeconds seconds).1, ?_, ?_, ?_⟩
  · change seconds % 86400 / 3600 < 24
    omega
  · change seconds % 86400 % 3600 / 60 < 60
    omega
  · change seconds % 86400 % 60 < 60
    omega

theorem count_ofSeconds (seconds : Nat) : (ofSeconds seconds).count = seconds := by
  have hhour : (ofSeconds seconds).hour = seconds % 86400 / 3600 := rfl
  have hminute : (ofSeconds seconds).minute = seconds % 86400 % 3600 / 60 := rfl
  have hsecond : (ofSeconds seconds).second = seconds % 86400 % 60 := rfl
  rw [count, (date_ofSeconds seconds).2, hhour, hminute, hsecond]
  omega

theorem midnight_epoch : midnight 1970 = 0 := by decide

theorem midnight_mono {year later : Nat} (h : year ≤ later) : midnight year ≤ midnight later :=
  Int.mul_le_mul_of_nonneg_right (Calendar.dayNumber_year_mono h) (by decide)

/-- The seconds of a reading lie within its year. -/
theorem Valid.mem_year {t : CivilTime} (h : t.Valid) :
    midnight t.year ≤ t.count ∧ t.count < midnight (t.year + 1) := by
  obtain ⟨hfrom, hto⟩ := h.date.mem_year
  obtain ⟨-, hhour, hminute, hsecond⟩ := h
  simp only [count, midnight]
  omega

/-- A reading is of an earlier year exactly before the first midnight of the year. -/
theorem Valid.year_lt_iff {t : CivilTime} (h : t.Valid) (year : Nat) :
    t.year < year ↔ t.count < midnight year := by
  obtain ⟨hfrom, hto⟩ := h.mem_year
  constructor
  · intro hlt
    exact hto.trans_le (midnight_mono hlt)
  · intro hlt
    by_contra hge
    exact absurd hlt (not_lt.mpr ((midnight_mono (Nat.le_of_not_lt hge)).trans hfrom))

/-- Readings with one count are of one date and one time of day. -/
theorem Valid.eq_of_count {t t' : CivilTime} (h : t.Valid) (h' : t'.Valid)
    (heq : t.count = t'.count) : t = { t' with weekday := t.weekday } := by
  obtain ⟨hdate, hhour, hminute, hsecond⟩ := h
  obtain ⟨hdate', hhour', hminute', hsecond'⟩ := h'
  obtain ⟨year, month, day, hour, minute, second, weekday⟩ := t
  obtain ⟨year', month', day', hour', minute', second', weekday'⟩ := t'
  dsimp only [count] at *
  obtain ⟨rfl, rfl, rfl⟩ := Calendar.dayNumber_inj hdate hdate' (by omega)
  simp only [mk.injEq, true_and, and_true]
  omega

/-- A reading of 1970 or later is read off its count. -/
theorem Valid.ofSeconds_count {t : CivilTime} (h : t.Valid) (since : 1970 ≤ t.year) :
    ∃ seconds : Nat, (seconds : Int) = t.count ∧
      ofSeconds seconds = { t with weekday := .ofDay (seconds / 86400) } := by
  have hfrom : 0 ≤ t.count := midnight_epoch ▸ (midnight_mono since).trans h.mem_year.1
  have hcount : (t.count.toNat : Int) = t.count := Int.toNat_of_nonneg hfrom
  refine ⟨t.count.toNat, hcount, ?_⟩
  exact (valid_ofSeconds _).eq_of_count h ((count_ofSeconds _).trans hcount)

end CivilTime

end DriveShell
