import Mathlib.Algebra.Group.Nat.Defs
import DriveShell.Text.Basic

/-!
# Padded numbers

A number that is filled with zeros to a width is read back from its digits, whatever the width is
(`ofDigitChars_zeroPadded`).  In front of a character that is no digit it is told apart from all
that follows (`zeroPadded_append_inj`).

Two numbers that fit in the width have the same number of digits.  Digits of one length compare
character by character as the numbers do that they show, and only where they agree does what comes
after them count (`zeroPadded_append_lt`).  So numbers in columns sort as texts.  The induction is
along the digits, with any two numbers read before them: the first difference decides.
-/

namespace DriveShell

namespace Text

variable {width m n : Nat} {s t u v : Text}

/-! ## Reading back -/

theorem isDigit_of_mem_zeroPadded {c : Char} (h : c ∈ zeroPadded width n) : c.isDigit = true := by
  rw [zeroPadded, List.leftpad, List.mem_append, List.mem_replicate] at h
  rcases h with ⟨-, rfl⟩ | h
  · rfl
  · exact Nat.isDigit_of_mem_toDigits (by decide) (by decide) h

theorem ofDigitChars_zeroPadded (width n : Nat) :
    Nat.ofDigitChars 10 (zeroPadded width n) 0 = n := by
  rw [zeroPadded, List.leftpad, Nat.ofDigitChars_append, Nat.ofDigitChars_replicate_zero,
    Nat.mul_zero, ofNat, Nat.ofDigitChars_ten_toDigits]

theorem zeroPadded_inj : zeroPadded width m = zeroPadded width n ↔ m = n := by
  constructor
  · intro h
    rw [← ofDigitChars_zeroPadded width m, h, ofDigitChars_zeroPadded]
  · rintro rfl
    rfl

/-- The digits end where another character begins. -/
theorem takeWhile_zeroPadded {c : Char} (hc : c.isDigit = false) (t : Text) :
    (zeroPadded width n ++ c :: t).takeWhile Char.isDigit = zeroPadded width n := by
  rw [List.takeWhile_append_of_pos fun _ => isDigit_of_mem_zeroPadded,
    List.takeWhile_cons_of_neg (by simp [hc]), List.append_nil]

theorem zeroPadded_append_inj {c : Char} (hc : c.isDigit = false) :
    zeroPadded width m ++ c :: s = zeroPadded width n ++ c :: t ↔ m = n ∧ s = t := by
  constructor
  · intro h
    have hdigits := congrArg (List.takeWhile Char.isDigit) h
    rw [takeWhile_zeroPadded hc, takeWhile_zeroPadded hc] at hdigits
    rw [hdigits, List.append_cancel_left_eq, List.cons.injEq] at h
    exact ⟨zeroPadded_inj.mp hdigits, h.2⟩
  · rintro ⟨rfl, rfl⟩
    rfl

/-! ## Order -/

theorem length_zeroPadded (hwidth : 0 < width) (h : n < 10 ^ width) :
    (zeroPadded width n).length = width := by
  rw [zeroPadded, List.length_leftpad, ofNat]
  exact Nat.max_eq_left ((Nat.length_toDigits_le_iff (by decide) hwidth).mpr h)

theorem toNat_of_isDigit {c : Char} (h : c.isDigit = true) : 48 ≤ c.toNat ∧ c.toNat < 58 := by
  obtain ⟨hzero, hnine⟩ := Char.isDigit_iff_toNat.mp h
  exact ⟨hzero, Nat.lt_succ_of_le hnine⟩

/-- Digits of one length compare as the numbers that they show, after what was read before. -/
theorem ofDigitChars_lt_iff (hlength : s.length = t.length) (hs : ∀ c ∈ s, c.isDigit = true)
    (ht : ∀ c ∈ t, c.isDigit = true) (m n : Nat) :
    Nat.ofDigitChars 10 s m < Nat.ofDigitChars 10 t n ↔ m < n ∨ m = n ∧ s < t := by
  induction s generalizing t m n with
  | nil =>
    have hnil : t = [] := List.eq_nil_of_length_eq_zero hlength.symm
    subst hnil
    simp [Nat.ofDigitChars]
  | cons c s ih =>
    cases t with
    | nil => cases hlength
    | cons d t =>
      obtain ⟨hc, hs⟩ := List.forall_mem_cons.mp hs
      obtain ⟨hd, ht⟩ := List.forall_mem_cons.mp ht
      have hc := toNat_of_isDigit hc
      have hd := toNat_of_isDigit hd
      have hlt : c < d ↔ c.toNat < d.toNat := Iff.rfl
      have hzero : '0'.toNat = 48 := rfl
      rw [Nat.ofDigitChars_cons, Nat.ofDigitChars_cons, ih (Nat.succ_inj.mp hlength) hs ht,
        List.cons_lt_cons_iff, ← Char.toNat_inj, hlt, hzero]
      by_cases hrest : s < t
      · simp only [hrest, and_true]
        omega
      · simp only [hrest, and_false, or_false]
        omega

theorem zeroPadded_lt (hwidth : 0 < width) (hm : m < 10 ^ width) (hn : n < 10 ^ width) :
    zeroPadded width m < zeroPadded width n ↔ m < n := by
  have hlength := (length_zeroPadded hwidth hm).trans (length_zeroPadded hwidth hn).symm
  have hvalue := ofDigitChars_lt_iff hlength (fun _ => isDigit_of_mem_zeroPadded)
    (fun _ => isDigit_of_mem_zeroPadded) 0 0
  rw [ofDigitChars_zeroPadded, ofDigitChars_zeroPadded] at hvalue
  rw [hvalue]
  simp

/-- Texts behind beginnings of one length. -/
theorem append_lt_append_iff (hlength : s.length = t.length) :
    s ++ u < t ++ v ↔ s < t ∨ s = t ∧ u < v := by
  induction s generalizing t with
  | nil =>
    have hnil : t = [] := List.eq_nil_of_length_eq_zero hlength.symm
    subst hnil
    simp
  | cons c s ih =>
    cases t with
    | nil => cases hlength
    | cons d t =>
      rw [List.cons_append, List.cons_append, List.cons_lt_cons_iff, List.cons_lt_cons_iff,
        ih (Nat.succ_inj.mp hlength), List.cons.injEq, and_or_left, or_assoc, and_assoc]

/-- Numbers that fit in their column, and what comes after them. -/
theorem zeroPadded_append_lt (hwidth : 0 < width) (hm : m < 10 ^ width) (hn : n < 10 ^ width) :
    zeroPadded width m ++ s < zeroPadded width n ++ t ↔ m < n ∨ m = n ∧ s < t := by
  have hlength := (length_zeroPadded hwidth hm).trans (length_zeroPadded hwidth hn).symm
  rw [append_lt_append_iff hlength, zeroPadded_lt hwidth hm hn, zeroPadded_inj]

end Text

end DriveShell
