/-!
# Binary floating-point numbers

Confidences, thresholds and shares are binary floating-point numbers.  A number
is kept as what it stands for: a sign, a natural significand and an exponent of
two.  So every operation is exact arithmetic on rationals followed by one
rounding, and every comparison is a comparison of rationals.

A `Format` says how many bits a significand has and between which exponents it
lies.  `Format.nearest` rounds a rational to the nearest number of the format,
a tie to the even significand.  A significand that rounds up past its width
moves to the next exponent, and past the last exponent the result is infinite.

Numbers of a format are kept with the least exponent that the width allows, so
equal numbers have equal fields.  The sign of zero is kept: it is printed.
-/

namespace DriveShell

/-! ## Formats -/

/-- A binary format. -/
structure Format where
  /-- The number of bits of a significand. -/
  precision : Nat
  /-- The exponent of the smallest positive number. -/
  lowest : Int
  /-- The exponent of the largest numbers. -/
  highest : Int

/-- Thirty-two bits: significands of 24 bits. -/
def Format.single : Format := ⟨24, -149, 104⟩

/-- Sixty-four bits: significands of 53 bits. -/
def Format.double : Format := ⟨53, -1074, 971⟩

/-- A floating-point number, whatever its format. -/
inductive Floating
  /-- No number. -/
  | nan
  /-- Larger in size than every finite number. -/
  | infinite (negative : Bool)
  /-- The number `significand * 2 ^ exponent` with its sign. -/
  | finite (negative : Bool) (significand : Nat) (exponent : Int)
deriving DecidableEq, Inhabited

/-! ## Rounding -/

/-- The nearest integer.  A value halfway between two goes to the even one. -/
def roundHalfEven (x : Rat) : Int :=
  let below := x.floor
  let rest := x - below
  if rest < 1 / 2 then below
  else if 1 / 2 < rest then below + 1
  else if below % 2 = 0 then below
  else below + 1

namespace Format

/-- The least exponent at which the integer part of a positive `x` fits the
width of a significand, never below the lowest exponent of the format. -/
def exponentOf (f : Format) (x : Rat) : Int :=
  let estimate : Int := (x.num.natAbs.log2 : Int) - (x.den.log2 : Int) - f.precision
  let fitting := if x < (2 : Rat) ^ (estimate + f.precision) then estimate else estimate + 1
  max fitting f.lowest

/-- A number of the format from its parts, infinite past the highest exponent. -/
def bounded (f : Format) (negative : Bool) (significand : Nat) (exponent : Int) : Floating :=
  if f.highest < exponent then .infinite negative else .finite negative significand exponent

/-- The number of the format nearest to a rational size with the given sign. -/
def nearest (f : Format) (negative : Bool) (size : Rat) : Floating :=
  if size = 0 then .finite negative 0 0
  else
    let exponent := f.exponentOf size
    let significand := (roundHalfEven (size / (2 : Rat) ^ exponent)).toNat
    if significand = 0 then .finite negative 0 0
    else if significand = Nat.pow 2 f.precision then
      f.bounded negative (Nat.pow 2 (f.precision - 1)) (exponent + 1)
    else f.bounded negative significand exponent

/-- The number of the format nearest to an integer. -/
def ofInt (f : Format) (n : Int) : Floating := f.nearest (n < 0) n.natAbs

/-- The number of the format nearest to `digits * 10 ^ exponent`.

A value with its first digit far above the largest number is infinite, and one
far below the smallest is zero, so a long exponent is never raised to a power. -/
def ofDecimal (f : Format) (negative : Bool) (digits : Nat) (exponent : Int) : Floating :=
  let first := exponent + (Nat.toDigits 10 digits).length
  if digits = 0 ∨ first < f.lowest - 1 then .finite negative 0 0
  else if f.highest + f.precision < first - 1 then .infinite negative
  else f.nearest negative (digits * (10 : Rat) ^ exponent)

end Format

/-! ## Values and order -/

namespace Floating

/-- The size of a finite number, and zero for the others. -/
def size : Floating → Rat
  | .finite _ significand exponent => significand * (2 : Rat) ^ exponent
  | _ => 0

/-- The value of a finite number, and zero for the others. -/
def value : Floating → Rat
  | .finite true significand exponent => -(significand * (2 : Rat) ^ exponent)
  | .finite false significand exponent => significand * (2 : Rat) ^ exponent
  | _ => 0

/-- Whether one number is less than another.  Nothing compares with `nan`. -/
def lt : Floating → Floating → Bool
  | .nan, _ => false
  | _, .nan => false
  | .infinite x, .infinite y => x && !y
  | .infinite x, .finite .. => x
  | .finite .., .infinite y => !y
  | x@(.finite ..), y@(.finite ..) => x.value < y.value

/-- Whether one number is less than or equal to another.  Nothing compares with `nan`. -/
def le : Floating → Floating → Bool
  | .nan, _ => false
  | _, .nan => false
  | .infinite x, .infinite y => x || !y
  | .infinite x, .finite .. => x
  | .finite .., .infinite y => !y
  | x@(.finite ..), y@(.finite ..) => x.value ≤ y.value

/-- The number rounded to another format. -/
def convert (f : Format) : Floating → Floating
  | x@(.finite negative ..) => f.nearest negative x.size
  | x => x

/-- The number zero. -/
def zero : Floating := .finite false 0 0

/-- The number one in thirty-two bits. -/
def one : Floating := .finite false (Nat.pow 2 23) (-23)

/-! ## Checks by evaluation -/

example : Format.single.ofInt 1 = one := by decide +kernel
example : Format.single.ofDecimal false 1 (-1) = .finite false 13421773 (-27) := by decide +kernel
example : Format.single.ofInt 16777217 = .finite false (2 ^ 23) 1 := by decide +kernel
example : Format.single.ofDecimal false 1 40 = .infinite false := by decide +kernel
example : Format.single.ofDecimal true 1 (-46) = .finite true 0 0 := by decide +kernel
example : lt zero one = true := by decide +kernel
example : le one one = true := by decide +kernel

end Floating

end DriveShell
