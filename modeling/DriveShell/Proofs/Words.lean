import Mathlib.Algebra.Group.Nat.Defs

/-!
# Words

A machine counts in words of a fixed width.  A sum or a product that is too large for its word and
a difference below zero give no result (`add?`, `mul?`, `sub?`).  Each of these operations gives a
word exactly if that word is what the numbers give.
-/

namespace DriveShell

namespace Machine

variable {w : Nat} {a b c : BitVec w}

/-- The sum of two words, if it fits in a word. -/
def add? (a b : BitVec w) : Option (BitVec w) :=
  if a.toNat + b.toNat < 2 ^ w then some (a + b) else none

/-- The difference of two words, if it is not below zero. -/
def sub? (a b : BitVec w) : Option (BitVec w) :=
  if b ≤ a then some (a - b) else none

/-- The product of two words, if it fits in a word. -/
def mul? (a b : BitVec w) : Option (BitVec w) :=
  if a.toNat * b.toNat < 2 ^ w then some (a * b) else none

/-- The lesser of two words. -/
def lesser (a b : BitVec w) : BitVec w := if a ≤ b then a else b

/-- The greater of two words. -/
def greater (a b : BitVec w) : BitVec w := if a ≤ b then b else a

/-! ## What the operations give -/

theorem add?_eq_some : add? a b = some c ↔ a.toNat + b.toNat = c.toNat := by
  rw [add?, Option.ite_none_right_eq_some, Option.some_inj]
  constructor
  · rintro ⟨hfits, rfl⟩
    exact (BitVec.toNat_add_of_lt hfits).symm
  · intro hsum
    have hfits : a.toNat + b.toNat < 2 ^ w := hsum ▸ c.isLt
    exact ⟨hfits, BitVec.eq_of_toNat_eq ((BitVec.toNat_add_of_lt hfits).trans hsum)⟩

theorem sub?_eq_some : sub? a b = some c ↔ b.toNat + c.toNat = a.toNat := by
  rw [sub?, Option.ite_none_right_eq_some, Option.some_inj]
  constructor
  · rintro ⟨hle, rfl⟩
    rw [BitVec.toNat_sub_of_le hle, Nat.add_sub_cancel' hle]
  · intro hsum
    have hle : b ≤ a := BitVec.le_def.mpr (by omega)
    refine ⟨hle, BitVec.eq_of_toNat_eq ?_⟩
    rw [BitVec.toNat_sub_of_le hle]
    omega

theorem mul?_eq_some : mul? a b = some c ↔ a.toNat * b.toNat = c.toNat := by
  rw [mul?, Option.ite_none_right_eq_some, Option.some_inj]
  constructor
  · rintro ⟨hfits, rfl⟩
    rw [BitVec.toNat_mul, Nat.mod_eq_of_lt hfits]
  · intro hproduct
    have hfits : a.toNat * b.toNat < 2 ^ w := hproduct ▸ c.isLt
    refine ⟨hfits, BitVec.eq_of_toNat_eq ?_⟩
    rw [BitVec.toNat_mul, Nat.mod_eq_of_lt hfits, hproduct]

theorem add?_eq_none : add? a b = none ↔ 2 ^ w ≤ a.toNat + b.toNat := by
  rw [add?, ite_eq_right_iff]
  simp only [reduceCtorEq, imp_false, Nat.not_lt]

theorem sub?_eq_none : sub? a b = none ↔ a < b := by
  rw [sub?, ite_eq_right_iff]
  simp only [reduceCtorEq, imp_false, BitVec.not_le]

theorem toNat_lesser (a b : BitVec w) : (lesser a b).toNat = min a.toNat b.toNat := by
  rw [lesser]
  split
  next hle => exact (Nat.min_eq_left hle).symm
  next hlt => exact (Nat.min_eq_right (Nat.le_of_not_le hlt)).symm

theorem toNat_greater (a b : BitVec w) : (greater a b).toNat = max a.toNat b.toNat := by
  rw [greater]
  split
  next hle => exact (Nat.max_eq_right hle).symm
  next hlt => exact (Nat.max_eq_left (Nat.le_of_not_le hlt)).symm

/-! ## Numbers and words -/

/-- Narrowing keeps a number that fits. -/
theorem toNat_setWidth_of_lt {v n : Nat} (h : a.toNat = n) (fits : n < 2 ^ v) :
    (a.setWidth v).toNat = n := by
  rw [BitVec.toNat_setWidth, h, Nat.mod_eq_of_lt fits]

/-- A number that fits is the number of a word. -/
theorem exists_toNat {n : Nat} (h : n < 2 ^ w) : ∃ a : BitVec w, a.toNat = n :=
  ⟨BitVec.ofNatLT n h, BitVec.toNat_ofNatLT n h⟩

end Machine

end DriveShell
