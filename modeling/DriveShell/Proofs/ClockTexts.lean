import DriveShell.Proofs.MachineClock
import DriveShell.Proofs.PaddedNumbers
import DriveShell.Proofs.Splitting

/-!
# Clock readings as text

The long text of a reading begins with the year and ends with the second, each number in a column
of its own.  So the texts of four-digit years are in the order of the numbers, the numbers are in
the order of the readings, and the readings are in the order of their seconds
(`text_lt_iff`, `count_lt_iff`).

The stamp of a listing puts the month first and shows the hour on a dial of twelve.  It is not in
order, but nothing is lost in it except the second: the half of the day gives the hour back
(`hourOnDial_twelveHour`), and each number ends where a character stands that is no digit
(`stamp_eq_iff`).
-/

namespace DriveShell

namespace CivilTime

variable {t t' : CivilTime}

/-! ## The order of readings -/

/-- The numbers of a reading, the greatest unit first. -/
def numbers (t : CivilTime) : List Nat := [t.year, t.month, t.day, t.hour, t.minute, t.second]

theorem numbers_lt_iff : t.numbers < t'.numbers ↔
    t.year < t'.year ∨ t.year = t'.year ∧ (t.month < t'.month ∨ t.month = t'.month ∧
      (t.day < t'.day ∨ t.day = t'.day ∧ (t.hour < t'.hour ∨ t.hour = t'.hour ∧
        (t.minute < t'.minute ∨ t.minute = t'.minute ∧ t.second < t'.second)))) := by
  simp only [numbers, List.cons_lt_cons_iff, List.not_lt_nil, and_false, or_false]

/-- Readings are in the order of their numbers. -/
theorem count_lt_iff (h : t.Valid) (h' : t'.Valid) :
    t.count < t'.count ↔ t.numbers < t'.numbers := by
  have hlt := h.date.dayNumber_lt_iff h'.date
  have hgt := h'.date.dayNumber_lt_iff h.date
  obtain ⟨-, hhour, hminute, hsecond⟩ := h
  obtain ⟨-, hhour', hminute', hsecond'⟩ := h'
  rw [numbers_lt_iff, count, count]
  omega

/-! ## The long text -/

theorem text_eq (t : CivilTime) :
    t.text = Text.zeroPadded 4 t.year ++ '-' :: (Text.zeroPadded 2 t.month ++
      '-' :: (Text.zeroPadded 2 t.day ++ ' ' :: (Text.zeroPadded 2 t.hour ++
        ':' :: (Text.zeroPadded 2 t.minute ++ ':' :: Text.zeroPadded 2 t.second)))) := by
  simp only [text, Text.join_cons_cons, Text.join_singleton, List.append_assoc,
    List.cons_append, List.nil_append]

/-- The numbers of a reading are no wider than their columns. -/
theorem Valid.lt_hundred (h : t.Valid) : t.month < 10 ^ 2 ∧ t.day < 10 ^ 2 ∧ t.hour < 10 ^ 2 ∧
    t.minute < 10 ^ 2 ∧ t.second < 10 ^ 2 := by
  have hmonth := h.date.month_le
  have hday := h.date.day_le.trans (Calendar.monthLength_le t.year t.month)
  obtain ⟨-, hhour, hminute, hsecond⟩ := h
  omega

/-- Texts of four-digit years are in the order of the numbers. -/
theorem text_lt_iff (h : t.Valid) (h' : t'.Valid) (hyear : t.year < 10 ^ 4)
    (hyear' : t'.year < 10 ^ 4) : t.text < t'.text ↔ t.numbers < t'.numbers := by
  obtain ⟨hmonth, hday, hhour, hminute, hsecond⟩ := h.lt_hundred
  obtain ⟨hmonth', hday', hhour', hminute', hsecond'⟩ := h'.lt_hundred
  have hfour : 0 < 4 := by decide
  have htwo : 0 < 2 := by decide
  rw [numbers_lt_iff, text_eq, text_eq, Text.zeroPadded_append_lt hfour hyear hyear',
    List.cons_lt_cons_iff, Text.zeroPadded_append_lt htwo hmonth hmonth',
    List.cons_lt_cons_iff, Text.zeroPadded_append_lt htwo hday hday',
    List.cons_lt_cons_iff, Text.zeroPadded_append_lt htwo hhour hhour',
    List.cons_lt_cons_iff, Text.zeroPadded_append_lt htwo hminute hminute',
    List.cons_lt_cons_iff, Text.zeroPadded_lt htwo hsecond hsecond']
  simp only [Char.lt_irrefl, true_and, false_or]

/-! ## The stamp of a listing -/

/-- The hour that a dial of twelve shows in a half of the day. -/
def hourOnDial (shown : Nat × Text) : Nat :=
  shown.1 % 12 + if shown.2 = "PM".toList then 12 else 0

theorem hourOnDial_morning (hour : Nat) : hourOnDial (hour, "AM") = hour % 12 := rfl

theorem hourOnDial_afternoon (hour : Nat) : hourOnDial (hour, "PM") = hour % 12 + 12 := rfl

/-- No hour is lost on the dial. -/
theorem hourOnDial_twelveHour (h : t.hour < 24) : hourOnDial t.twelveHour = t.hour := by
  rw [twelveHour]
  split
  next hmidnight =>
    rw [hourOnDial_morning, hmidnight]
  next =>
    split
    next hmorning =>
      rw [hourOnDial_morning, Nat.mod_eq_of_lt hmorning]
    next =>
      split
      next hnoon =>
        rw [hourOnDial_afternoon, hnoon]
      next =>
        rw [hourOnDial_afternoon]
        omega

theorem twelveHour_congr (h : t.hour = t'.hour) : t.twelveHour = t'.twelveHour := by
  rw [twelveHour, twelveHour, h]

theorem stamp_eq (t : CivilTime) :
    t.stamp = Text.zeroPadded 2 t.month ++ '/' :: (Text.zeroPadded 2 t.day ++
      '/' :: (Text.zeroPadded 4 t.year ++ ' ' :: ' ' :: (Text.zeroPadded 2 t.twelveHour.1 ++
        ':' :: (Text.zeroPadded 2 t.minute ++ ' ' :: t.twelveHour.2)))) := by
  have hgap : "  ".toList = [' ', ' '] := rfl
  simp only [stamp, dateText, hgap, Text.join_cons_cons, Text.join_singleton, List.append_assoc,
    List.cons_append, List.nil_append]

theorem stamp_eq_iff (h : t.hour < 24) (h' : t'.hour < 24) :
    t.stamp = t'.stamp ↔ t.year = t'.year ∧ t.month = t'.month ∧ t.day = t'.day ∧
      t.hour = t'.hour ∧ t.minute = t'.minute := by
  have hslash : '/'.isDigit = false := rfl
  have hblank : ' '.isDigit = false := rfl
  have hcolon : ':'.isDigit = false := rfl
  have hdial : t.hour = t'.hour ↔
      t.twelveHour.1 = t'.twelveHour.1 ∧ t.twelveHour.2 = t'.twelveHour.2 := by
    rw [← Prod.ext_iff]
    refine ⟨twelveHour_congr, fun heq => ?_⟩
    rw [← hourOnDial_twelveHour h, heq, hourOnDial_twelveHour h']
  rw [stamp_eq, stamp_eq, Text.zeroPadded_append_inj hslash, Text.zeroPadded_append_inj hslash,
    Text.zeroPadded_append_inj hblank, List.cons.injEq, Text.zeroPadded_append_inj hcolon,
    Text.zeroPadded_append_inj hblank, hdial]
  tauto

/-! ## Readings of seconds -/

/-- Seconds of one minute have readings that differ in the second only. -/
theorem ofSeconds_of_minute {a b : Nat} (h : a / 60 = b / 60) :
    ofSeconds a = { ofSeconds b with second := (ofSeconds a).second } := by
  have hdays : a / 86400 = b / 86400 := by omega
  have hhour : a % 86400 / 3600 = b % 86400 / 3600 := by omega
  have hminute : a % 86400 % 3600 / 60 = b % 86400 % 3600 / 60 := by omega
  simp only [ofSeconds, hdays, hhour, hminute]

theorem text_ofSeconds_lt_iff {a b : Nat} (ha : (a : Int) < midnight 10000)
    (hb : (b : Int) < midnight 10000) : (ofSeconds a).text < (ofSeconds b).text ↔ a < b := by
  have hvalid := valid_ofSeconds a
  have hvalid' := valid_ofSeconds b
  rw [← count_ofSeconds, ← hvalid.year_lt_iff] at ha
  rw [← count_ofSeconds, ← hvalid'.year_lt_iff] at hb
  rw [text_lt_iff hvalid hvalid' ha hb, ← count_lt_iff hvalid hvalid', count_ofSeconds,
    count_ofSeconds, Int.ofNat_lt]

theorem stamp_ofSeconds_eq_iff (a b : Nat) :
    (ofSeconds a).stamp = (ofSeconds b).stamp ↔ a / 60 = b / 60 := by
  constructor
  · intro h
    have hvalid := valid_ofSeconds a
    have hvalid' := valid_ofSeconds b
    obtain ⟨hyear, hmonth, hday, hhour, hminute⟩ :=
      (stamp_eq_iff hvalid.hour_lt hvalid'.hour_lt).mp h
    have hsecond := hvalid.second_lt
    have hsecond' := hvalid'.second_lt
    have hcount := count_ofSeconds a
    have hcount' := count_ofSeconds b
    rw [count, hyear, hmonth, hday, hhour, hminute] at hcount
    rw [count] at hcount'
    omega
  · intro h
    rw [ofSeconds_of_minute h]
    rfl

end CivilTime

namespace Reading

/-- Before the year 10000 the texts of readings are in the order of their seconds, and wherever a
clock in words can be read, two readings have one stamp exactly if their seconds lie in one
minute. -/
theorem texts_in_order :
    (∀ a b : BitVec 64, (a.toNat : Int) < CivilTime.midnight 10000 →
      (b.toNat : Int) < CivilTime.midnight 10000 →
      ∃ r r', ofSeconds a = some r ∧ ofSeconds b = some r' ∧
        (a < b ↔ r.widen.text < r'.widen.text)) ∧
    (∀ a b : BitVec 64, (a.toNat : Int) < CivilTime.midnight 65536 →
      (b.toNat : Int) < CivilTime.midnight 65536 →
      ∃ r r', ofSeconds a = some r ∧ ofSeconds b = some r' ∧
        (r.widen.stamp = r'.widen.stamp ↔ a.toNat / 60 = b.toNat / 60)) := by
  have hlater : CivilTime.midnight 10000 ≤ CivilTime.midnight 65536 := by decide
  refine ⟨fun a b ha hb => ?_, fun a b ha hb => ?_⟩
  · obtain ⟨r, hr, hwiden⟩ := exists_ofSeconds_of_lt_midnight (ha.trans_le hlater)
    obtain ⟨r', hr', hwiden'⟩ := exists_ofSeconds_of_lt_midnight (hb.trans_le hlater)
    refine ⟨r, r', hr, hr', ?_⟩
    rw [hwiden, hwiden', CivilTime.text_ofSeconds_lt_iff ha hb, BitVec.lt_def]
  · obtain ⟨r, hr, hwiden⟩ := exists_ofSeconds_of_lt_midnight ha
    obtain ⟨r', hr', hwiden'⟩ := exists_ofSeconds_of_lt_midnight hb
    refine ⟨r, r', hr, hr', ?_⟩
    rw [hwiden, hwiden', CivilTime.stamp_ofSeconds_eq_iff]

/-- The last second of 1999 and the first of 2000, where the dial goes from eleven to twelve. -/
theorem texts_in_order_new_year :
    ((946684799#64).toNat : Int) < CivilTime.midnight 10000 ∧
    ((946684800#64).toNat : Int) < CivilTime.midnight 10000 ∧
    ((946684799#64).toNat : Int) < CivilTime.midnight 65536 ∧
    ((946684800#64).toNat : Int) < CivilTime.midnight 65536 ∧
    (∃ r r', ofSeconds 946684799#64 = some r ∧ ofSeconds 946684800#64 = some r' ∧
      r.widen.text < r'.widen.text) ∧
    (∃ r r', ofSeconds 946684799#64 = some r ∧ ofSeconds 946684800#64 = some r' ∧
      r.widen.stamp ≠ r'.widen.stamp) := by
  obtain ⟨htext, hstamp⟩ := texts_in_order
  refine ⟨by decide, by decide, by decide, by decide, ?_, ?_⟩
  · obtain ⟨r, r', hr, hr', hiff⟩ := htext 946684799#64 946684800#64 (by decide) (by decide)
    exact ⟨r, r', hr, hr', hiff.1 (by decide)⟩
  · obtain ⟨r, r', hr, hr', hiff⟩ := hstamp 946684799#64 946684800#64 (by decide) (by decide)
    exact ⟨r, r', hr, hr', mt hiff.1 (by decide)⟩

end Reading

end DriveShell
