import DriveShell.Proofs.DayNumbers
import DriveShell.Proofs.Words

/-!
# A clock in machine words

`CivilTime.ofSeconds` counts with numbers of any size.  A machine counts the seconds and the days
in 64 bits, keeps the year in 16 and the other parts of a reading in 8.  Here the same walk is
done in words, and every addition and subtraction is one that can fail: a sum that is too large
for its word and a difference below zero give no result (`add?`, `sub?`).  The narrowing to 8 bits
does not fail, it drops what does not fit.

The subtractions never fail, as the walk compares before each of them.  The one step that can fail
is the year after 65535, so that a reading comes out exactly where the year fits in its word
(`yearOf_eq_some`, `isSome_ofSeconds`).  The narrowing drops nothing, as the walk over the months
ends within the year and never gets to the December that stands in for a month that is not found
(`exists_monthOf_of_lt_sum`).
-/

namespace DriveShell

namespace Machine

/-! ## The walk -/

/-- Whether a year has a 29 February. -/
def isLeap (year : BitVec 16) : Bool :=
  (year % 4#16 = 0#16 && year % 100#16 ≠ 0#16) || year % 400#16 = 0#16

/-- The number of days of a year. -/
def daysOfYear (year : BitVec 16) : BitVec 64 := if isLeap year then 366#64 else 365#64

/-- The numbers of days of the months of a year. -/
def monthLengths (year : BitVec 16) : List (BitVec 64) :=
  [31#64, if isLeap year then 29#64 else 28#64, 31#64, 30#64, 31#64, 30#64,
    31#64, 31#64, 30#64, 31#64, 30#64, 31#64]

/-- The year that a number of days after the start of `year` falls in, and the days since its
start. -/
def yearOf (year : BitVec 16) (days : BitVec 64) : Option (BitVec 16 × BitVec 64) :=
  if days < daysOfYear year then some (year, days)
  else
    match sub? days (daysOfYear year) with
    | none => none
    | some left =>
      match _ : add? year 1#16 with
      | none => none
      | some next => yearOf next left
termination_by 2 ^ 16 - year.toNat
decreasing_by
  have hsum : year.toNat + 1 = next.toNat := add?_eq_some.mp ‹_›
  have := next.isLt
  omega

/-- The month that a number of days after the start of month `month` falls in, and the days since
its start, along the lengths of the months that follow.  It is December where there is none. -/
def monthOf (month : Nat) (days : BitVec 64) :
    List (BitVec 64) → Option (BitVec 8 × BitVec 64)
  | [] => some (12#8, days)
  | length :: lengths =>
    if days < length then some (BitVec.ofNat 8 month, days)
    else (sub? days length).bind fun left => monthOf (month + 1) left lengths

/-- The year, the month and the day of a day counted from 1 January 1970. -/
def dateOf (days : BitVec 64) : Option (BitVec 16 × BitVec 8 × BitVec 8) := do
  let (year, dayOfYear) ← yearOf 1970#16 days
  let (month, dayOfMonth) ← monthOf 1 dayOfYear (monthLengths year)
  let day ← add? dayOfMonth 1#64
  return (year, month, day.setWidth 8)

end Machine

/-- A date with its weekday, and a time of day, in words. -/
structure Reading where
  /-- The year. -/
  year : BitVec 16
  /-- The month, from one. -/
  month : BitVec 8
  /-- The day of the month, from one. -/
  day : BitVec 8
  /-- The hour, from zero. -/
  hour : BitVec 8
  /-- The minute, from zero. -/
  minute : BitVec 8
  /-- The second, from zero. -/
  second : BitVec 8
  /-- The day of the week. -/
  weekday : Weekday
deriving DecidableEq

namespace Reading

/-- A reading with numbers of any size. -/
def widen (r : Reading) : CivilTime where
  year := r.year.toNat
  month := r.month.toNat
  day := r.day.toNat
  hour := r.hour.toNat
  minute := r.minute.toNat
  second := r.second.toNat
  weekday := r.weekday

/-- The date and time a number of seconds after the start of 1970. -/
def ofSeconds (seconds : BitVec 64) : Option Reading := do
  let days := seconds / 86400#64
  let rest := seconds % 86400#64
  let (year, month, day) ← Machine.dateOf days
  return {
    year := year
    month := month
    day := day
    hour := (rest / 3600#64).setWidth 8
    minute := (rest % 3600#64 / 60#64).setWidth 8
    second := (rest % 60#64).setWidth 8
    weekday := .ofDay days.toNat }

end Reading

/-! ## The two walks agree -/

namespace Machine

theorem isLeap_eq (year : BitVec 16) : isLeap year = Calendar.isLeap year.toNat := by
  simp only [isLeap, Calendar.isLeap, ne_eq, ← BitVec.toNat_inj, BitVec.toNat_umod]
  rfl

theorem daysOfYear_toNat (year : BitVec 16) :
    (daysOfYear year).toNat = Calendar.daysOfYear year.toNat := by
  rw [daysOfYear, Calendar.daysOfYear, isLeap_eq]
  split
  next => rfl
  next => rfl

theorem length_monthLengths (year : BitVec 16) : (monthLengths year).length = 12 := rfl

theorem monthLengths_toNat (year : BitVec 16) :
    (monthLengths year).map BitVec.toNat = Calendar.monthLengths year.toNat := by
  rw [monthLengths, Calendar.monthLengths, isLeap_eq]
  split
  next => rfl
  next => rfl

/-- After a year is taken off the days, the unbounded walk goes on from the next year. -/
theorem yearOf_of_sub? {year : BitVec 16} {days rest : BitVec 64}
    (h : sub? days (daysOfYear year) = some rest) :
    Calendar.yearOf year.toNat days.toNat = Calendar.yearOf (year.toNat + 1) rest.toNat := by
  rw [← sub?_eq_some.mp h, daysOfYear_toNat, Calendar.yearOf_add]

/-- The walk over years gives what the unbounded walk gives, where that fits in words. -/
theorem yearOf_eq_some {year later : BitVec 16} {days left : BitVec 64} :
    yearOf year days = some (later, left) ↔
      Calendar.yearOf year.toNat days.toNat = (later.toNat, left.toNat) := by
  fun_induction yearOf year days with
  | case1 year days hwithin =>
    rw [BitVec.lt_def, daysOfYear_toNat] at hwithin
    rw [Calendar.yearOf, if_neg (Nat.not_le_of_lt hwithin)]
    simp only [Option.some_inj, Prod.mk.injEq, BitVec.toNat_inj]
  | case2 year days hover hsub => exact absurd (sub?_eq_none.mp hsub) hover
  | case3 year days hover rest hsub hnext =>
    -- the year is 65535, and the unbounded walk goes on to a year that has no word
    refine iff_of_false (by simp only [reduceCtorEq, not_false_iff]) fun hwalk => ?_
    have hfull : 2 ^ 16 ≤ year.toNat + 1 := add?_eq_none.mp hnext
    have hlater := (Calendar.yearOf_spec (year.toNat + 1) rest.toNat).2.2
    rw [← yearOf_of_sub? hsub, hwalk] at hlater
    exact absurd later.isLt (not_lt.mpr (hfull.trans hlater))
  | case4 year days hover rest hsub next hnext ih =>
    have hyear : year.toNat + 1 = next.toNat := add?_eq_some.mp hnext
    rw [ih, yearOf_of_sub? hsub, hyear]

/-- The walk over months gives what the unbounded walk gives, if it ends within the lengths. -/
theorem exists_monthOf_of_lt_sum {month : Nat} {days : BitVec 64} {lengths : List (BitVec 64)}
    (hmonth : month + lengths.length ≤ 2 ^ 8)
    (hdays : days.toNat < (lengths.map BitVec.toNat).sum) :
    ∃ later left, monthOf month days lengths = some (later, left) ∧
      (later.toNat, left.toNat) =
        Calendar.monthOf month days.toNat (lengths.map BitVec.toNat) := by
  induction lengths generalizing month days with
  | nil => exact absurd hdays (Nat.not_lt_zero _)
  | cons length lengths ih =>
    rw [List.map_cons, List.sum_cons] at hdays
    rw [List.length_cons] at hmonth
    rw [monthOf, List.map_cons, Calendar.monthOf]
    split
    next hwithin =>
      rw [BitVec.lt_def] at hwithin
      refine ⟨BitVec.ofNat 8 month, days, rfl, ?_⟩
      rw [if_neg (Nat.not_le_of_lt hwithin), BitVec.toNat_ofNat, Nat.mod_eq_of_lt (by omega)]
    next hover =>
      rw [BitVec.lt_def, Nat.not_lt] at hover
      have hleft : (days - length).toNat = days.toNat - length.toNat := BitVec.toNat_sub_of_le hover
      rw [sub?, if_pos (BitVec.le_def.mpr hover), Option.bind_some, if_pos hover, ← hleft]
      exact ih (by omega) (by omega)

/-- A walk from 1970 to a year that fits in its word. -/
theorem exists_yearOf {days : BitVec 64} (h : (Calendar.yearOf 1970 days.toNat).1 < 2 ^ 16) :
    ∃ year left, yearOf 1970#16 days = some (year, left) ∧
      Calendar.yearOf 1970 days.toNat = (year.toNat, left.toNat) ∧
      left.toNat < Calendar.daysOfYear year.toNat := by
  obtain ⟨-, hwithin, -⟩ := Calendar.yearOf_spec 1970 days.toNat
  have hfits : (Calendar.yearOf 1970 days.toNat).2 < 2 ^ 64 :=
    (hwithin.trans_le (Calendar.daysOfYear_le _)).trans (by decide)
  obtain ⟨year, hyear⟩ := exists_toNat h
  obtain ⟨left, hleft⟩ := exists_toNat hfits
  have hwalk : Calendar.yearOf 1970 days.toNat = (year.toNat, left.toNat) :=
    Prod.ext hyear.symm hleft.symm
  refine ⟨year, left, yearOf_eq_some.mpr hwalk, hwalk, ?_⟩
  rwa [hyear, hleft]

/-- A walk over the months from within a year. -/
theorem exists_monthOf {year : BitVec 16} {days : BitVec 64}
    (h : days.toNat < Calendar.daysOfYear year.toNat) :
    ∃ month left, monthOf 1 days (monthLengths year) = some (month, left) ∧
      Calendar.monthOf 1 days.toNat (Calendar.monthLengths year.toNat) =
        (month.toNat, left.toNat) ∧ left.toNat < 31 := by
  have hsum : days.toNat < ((monthLengths year).map BitVec.toNat).sum := by
    rwa [monthLengths_toNat, Calendar.sum_monthLengths]
  have hcount : 1 + (monthLengths year).length ≤ 2 ^ 8 := by
    rw [length_monthLengths]
    decide
  obtain ⟨month, left, hmonth, hwalk⟩ := exists_monthOf_of_lt_sum hcount hsum
  obtain ⟨-, hwithin, -⟩ := Calendar.monthOf_january h
  rw [monthLengths_toNat] at hwalk
  rw [← hwalk] at hwithin
  exact ⟨month, left, hmonth, hwalk.symm, hwithin.trans_le (Calendar.monthLength_le _ _)⟩

/-- Both walks in a row, to a year that fits in its word. -/
theorem exists_dateOf {days : BitVec 64} (h : (Calendar.yearOf 1970 days.toNat).1 < 2 ^ 16) :
    ∃ year month day dayOfYear dayOfMonth, dateOf days = some (year, month, day) ∧
      Calendar.yearOf 1970 days.toNat = (year.toNat, dayOfYear) ∧
      Calendar.monthOf 1 dayOfYear (Calendar.monthLengths year.toNat) =
        (month.toNat, dayOfMonth) ∧ day.toNat = dayOfMonth + 1 := by
  obtain ⟨year, dayOfYear, hyear, hwalk, hwithin⟩ := exists_yearOf h
  obtain ⟨month, dayOfMonth, hmonth, hwalk', hleft⟩ := exists_monthOf hwithin
  obtain ⟨day, hday⟩ : ∃ a : BitVec 64, a.toNat = dayOfMonth.toNat + 1 := exists_toNat (by omega)
  have hsum : add? dayOfMonth 1#64 = some day := add?_eq_some.mpr hday.symm
  refine ⟨year, month, day.setWidth 8, dayOfYear.toNat, dayOfMonth.toNat, ?_, hwalk, hwalk', ?_⟩
  · simp only [dateOf, hyear, hmonth, hsum, Option.bind_eq_bind, Option.bind_some, Option.pure_def]
  · exact toNat_setWidth_of_lt hday (by omega)

end Machine

namespace Reading

theorem widen_injective : Function.Injective widen := by
  rintro ⟨⟩ ⟨⟩ h
  simpa only [widen, CivilTime.mk.injEq, BitVec.toNat_inj, mk.injEq] using h

/-- Where the year fits in its word, no step fails and nothing is dropped. -/
theorem exists_ofSeconds {seconds : BitVec 64}
    (h : (CivilTime.ofSeconds seconds.toNat).year < 2 ^ 16) :
    ∃ r, ofSeconds seconds = some r ∧ r.widen = CivilTime.ofSeconds seconds.toNat := by
  have hdays : (seconds / 86400#64).toNat = seconds.toNat / 86400 := BitVec.toNat_udiv
  have hfits : (Calendar.yearOf 1970 (seconds / 86400#64).toNat).1 < 2 ^ 16 := by rwa [hdays]
  obtain ⟨year, month, day, dayOfYear, dayOfMonth, hdate, hyear, hmonth, hday⟩ :=
    Machine.exists_dateOf hfits
  rw [hdays] at hyear
  have hhour : ((seconds % 86400#64 / 3600#64).setWidth 8).toNat =
      seconds.toNat % 86400 / 3600 := Machine.toNat_setWidth_of_lt rfl (by omega)
  have hminute : ((seconds % 86400#64 % 3600#64 / 60#64).setWidth 8).toNat =
      seconds.toNat % 86400 % 3600 / 60 := Machine.toNat_setWidth_of_lt rfl (by omega)
  have hsecond : ((seconds % 86400#64 % 60#64).setWidth 8).toNat =
      seconds.toNat % 86400 % 60 := Machine.toNat_setWidth_of_lt rfl (by omega)
  simp only [ofSeconds, hdate]
  refine ⟨_, rfl, ?_⟩
  simp only [widen, CivilTime.ofSeconds, hyear, hmonth, hday, hdays, hhour, hminute, hsecond]

/-- A reading comes out of a year that fits in its word. -/
theorem year_lt_of_ofSeconds {seconds : BitVec 64} {r : Reading} (h : ofSeconds seconds = some r) :
    (CivilTime.ofSeconds seconds.toNat).year < 2 ^ 16 := by
  simp only [ofSeconds, Machine.dateOf, Option.bind_eq_bind, Option.bind_eq_some_iff] at h
  obtain ⟨-, ⟨⟨year, left⟩, hyear, -⟩, -⟩ := h
  have hwalk := Machine.yearOf_eq_some.mp hyear
  change (Calendar.yearOf (1970#16).toNat (seconds / 86400#64).toNat).1 < 2 ^ 16
  rw [hwalk]
  exact year.isLt

/-- The reading in words is the one with numbers of any size, wherever that fits. -/
theorem ofSeconds_eq_some {seconds : BitVec 64} {r : Reading} :
    ofSeconds seconds = some r ↔ r.widen = CivilTime.ofSeconds seconds.toNat := by
  constructor
  · intro h
    obtain ⟨r', hr', hwiden⟩ := exists_ofSeconds (year_lt_of_ofSeconds h)
    rwa [← Option.some_inj.mp (hr'.symm.trans h)]
  · intro h
    have hyear : (CivilTime.ofSeconds seconds.toNat).year < 2 ^ 16 := h ▸ r.year.isLt
    obtain ⟨r', hr', hwiden⟩ := exists_ofSeconds hyear
    rw [hr', widen_injective (hwiden.trans h.symm)]

/-- A clock in words can be read exactly before the first midnight of 65536. -/
theorem isSome_ofSeconds (seconds : BitVec 64) :
    (ofSeconds seconds).isSome = true ↔ (seconds.toNat : Int) < CivilTime.midnight 65536 := by
  have hvalid := CivilTime.valid_ofSeconds seconds.toNat
  rw [← CivilTime.count_ofSeconds, ← hvalid.year_lt_iff, Option.isSome_iff_exists]
  constructor
  · rintro ⟨r, hr⟩
    exact year_lt_of_ofSeconds hr
  · intro h
    obtain ⟨r, hr, -⟩ := exists_ofSeconds h
    exact ⟨r, hr⟩

/-- The reading in words before the first midnight of 65536. -/
theorem exists_ofSeconds_of_lt_midnight {seconds : BitVec 64}
    (h : (seconds.toNat : Int) < CivilTime.midnight 65536) :
    ∃ r, ofSeconds seconds = some r ∧ r.widen = CivilTime.ofSeconds seconds.toNat := by
  obtain ⟨r, hr⟩ := Option.isSome_iff_exists.mp ((isSome_ofSeconds seconds).mpr h)
  exact ⟨r, hr, ofSeconds_eq_some.mp hr⟩

/-- Seconds that can be read are told apart by their reading. -/
theorem eq_of_ofSeconds {seconds other : BitVec 64} {r : Reading}
    (h : ofSeconds seconds = some r) (h' : ofSeconds other = some r) : seconds = other := by
  have hsame : CivilTime.ofSeconds seconds.toNat = CivilTime.ofSeconds other.toNat :=
    (ofSeconds_eq_some.mp h).symm.trans (ofSeconds_eq_some.mp h')
  have hcount := congrArg CivilTime.count hsame
  rw [CivilTime.count_ofSeconds, CivilTime.count_ofSeconds] at hcount
  exact BitVec.eq_of_toNat_eq (Int.ofNat_inj.mp hcount)

/-- A date and a time of day in the years of the words are read somewhere. -/
theorem exists_seconds {t : CivilTime} (h : t.Valid) (since : 1970 ≤ t.year)
    (before : t.year < 65536) :
    ∃ (seconds : BitVec 64) (r : Reading), (seconds.toNat : Int) = t.count ∧
      ofSeconds seconds = some r ∧
      r.widen = { t with weekday := .ofDay (seconds.toNat / 86400) } := by
  obtain ⟨n, hcount, hread⟩ := h.ofSeconds_count since
  have hlast : CivilTime.midnight 65536 < (2 ^ 64 : Nat) := by decide
  have hbound : (n : Int) < CivilTime.midnight 65536 := hcount ▸ (h.year_lt_iff 65536).mp before
  obtain ⟨seconds, rfl⟩ : ∃ a : BitVec 64, a.toNat = n :=
    Machine.exists_toNat (Int.ofNat_lt.mp (hbound.trans hlast))
  obtain ⟨r, hr⟩ := Option.isSome_iff_exists.mp ((isSome_ofSeconds seconds).mpr hbound)
  exact ⟨seconds, r, hcount, hr, (ofSeconds_eq_some.mp hr).trans hread⟩

/-- Before midnight of 1 January 65536, a clock in words is read without a sum that is too large
or a difference below zero, and the reading is that of `CivilTime.ofSeconds`: a date of the
Gregorian calendar and a time of day, whose day number times 86400 and whose time of day make up
the seconds again.  So different seconds have different readings, and each date and time of day
from 1970 to 65535 is the reading of the seconds that the formula gives for it. -/
theorem exact_until_65536 :
    (∀ seconds : BitVec 64, (seconds.toNat : Int) < CivilTime.midnight 65536 →
      ∃ r, ofSeconds seconds = some r ∧ r.widen = CivilTime.ofSeconds seconds.toNat ∧
        r.widen.Valid ∧ r.widen.count = seconds.toNat) ∧
    (∀ seconds other : BitVec 64, (seconds.toNat : Int) < CivilTime.midnight 65536 →
      ofSeconds seconds = ofSeconds other → seconds = other) ∧
    (∀ t : CivilTime, t.Valid → 1970 ≤ t.year → t.year < 65536 →
      ∃ (seconds : BitVec 64) (r : Reading), (seconds.toNat : Int) = t.count ∧
        ofSeconds seconds = some r ∧
        r.widen = { t with weekday := .ofDay (seconds.toNat / 86400) }) := by
  refine ⟨fun seconds h => ?_, fun seconds other h heq => ?_, fun t hvalid since before => ?_⟩
  · obtain ⟨r, hr⟩ := Option.isSome_iff_exists.mp ((isSome_ofSeconds seconds).mpr h)
    have hwiden := ofSeconds_eq_some.mp hr
    refine ⟨r, hr, hwiden, ?_, ?_⟩
    · rw [hwiden]
      exact CivilTime.valid_ofSeconds _
    · rw [hwiden]
      exact CivilTime.count_ofSeconds _
  · obtain ⟨r, hr⟩ := Option.isSome_iff_exists.mp ((isSome_ofSeconds seconds).mpr h)
    exact eq_of_ofSeconds hr (heq ▸ hr)
  · exact exists_seconds hvalid since before

/-- The last second that can be read. -/
theorem exact_until_65536_last_second :
    ((2005949145599#64).toNat : Int) < CivilTime.midnight 65536 ∧
    (∃ r, ofSeconds 2005949145599#64 = some r ∧
      r.widen = CivilTime.ofSeconds (2005949145599#64).toNat ∧
      r.widen.Valid ∧ r.widen.count = (2005949145599#64).toNat) ∧
    (∀ other, ofSeconds 2005949145599#64 = ofSeconds other → 2005949145599#64 = other) ∧
    ∃ (seconds : BitVec 64) (r : Reading), (seconds.toNat : Int) = 2005949145599 ∧
      ofSeconds seconds = some r ∧
      r.widen = { year := 65535, month := 12, day := 31, hour := 23, minute := 59, second := 59,
                  weekday := .ofDay (seconds.toNat / 86400) } := by
  obtain ⟨hread, htold, hfound⟩ := exact_until_65536
  have hbefore : ((2005949145599#64).toNat : Int) < CivilTime.midnight 65536 := by decide
  refine ⟨hbefore, hread _ hbefore, fun other => htold _ other hbefore, ?_⟩
  have hdate : Calendar.IsDate 65535 12 31 := by decide
  exact hfound ⟨65535, 12, 31, 23, 59, 59, .sunday⟩
    ⟨hdate, by decide, by decide, by decide⟩ (by decide) (by decide)

end Reading

end DriveShell
