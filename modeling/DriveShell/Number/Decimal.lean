import DriveShell.Number.Floating
import DriveShell.Text.Basic

/-!
# Decimal text of numbers

A floating-point number is printed in one of two ways.

`Floating.shortest` prints the fewest digits that read back as the same number
of its format.  The decimals that read back are those of an interval around the
number: half way to its neighbours, the ends included when the significand is
even.  A coarser decimal grid has fewer digits, so the grids are tried from the
coarsest on, and on each only the two neighbours of the number can lie in the
interval.  Of two that do the nearer is taken, and on a tie the larger.  The
text is positional whatever the size: no exponent, and no point after an integer.

`Floating.fixed` prints a given number of decimals of the exact value, a tie
going to the even last digit.

Both print the sign of zero.
-/

namespace DriveShell

/-- The text of `digits * 10 ^ exponent`, written out with a point where it belongs. -/
def positional (digits : Nat) (exponent : Int) : Text :=
  if 0 ≤ exponent then Text.ofNat digits ++ List.replicate exponent.toNat '0'
  else
    let places := (-exponent).toNat
    let all := Text.zeroPadded (places + 1) digits
    all.take (all.length - places) ++ '.' :: all.drop (all.length - places)

/-- The text of a value with the sign given apart. -/
def signed (negative : Bool) (size : Text) : Text := if negative then '-' :: size else size

namespace Format

/-- Whether a rational lies in the interval of those that round to the positive
number `significand * 2 ^ exponent` of the format. -/
def readsBack (f : Format) (significand : Nat) (exponent : Int) (x : Rat) : Bool :=
  let unit := (2 : Rat) ^ exponent
  let value := significand * unit
  let below :=
    if significand = Nat.pow 2 (f.precision - 1) ∧ f.lowest < exponent then value - unit / 4
    else value - unit / 2
  let above := value + unit / 2
  if significand % 2 = 0 then below ≤ x && x ≤ above else below < x && x < above

/-- The neighbour of a number on the grid of multiples of `10 ^ k` that reads
back, the nearer if both do. -/
def onGrid? (f : Format) (significand : Nat) (exponent k : Int) : Option Nat :=
  let value := significand * (2 : Rat) ^ exponent
  let step := (10 : Rat) ^ k
  let lower := (value / step).floor.toNat
  let upper := lower + 1
  match f.readsBack significand exponent (lower * step),
      f.readsBack significand exponent (upper * step) with
  | true, true => some (if value - lower * step < upper * step - value then lower else upper)
  | true, false => some lower
  | false, true => some upper
  | false, false => none

/-- The decimal exponents of the grids, the coarsest first.  The first exceeds
every number of the format, and on the last every number is a grid point. -/
def grids (f : Format) : List Int :=
  let coarsest := (f.highest + f.precision) / 3 + 1
  (List.range (coarsest - f.lowest + 1).toNat).map fun i : Nat => coarsest - i

/-- The fewest digits that read back, with their decimal exponent. -/
def fewestDigits (f : Format) (significand : Nat) (exponent : Int) : Nat × Int :=
  (f.grids.findSome? fun k => (f.onGrid? significand exponent k).map (·, k)).getD (0, 0)

end Format

namespace Floating

/-- The shortest text that reads back as the same number of the format. -/
def shortest (f : Format) : Floating → Text
  | .nan => "NaN"
  | .infinite negative => signed negative "inf"
  | .finite negative significand exponent =>
    if significand = 0 then signed negative "0"
    else
      let (digits, k) := f.fewestDigits significand exponent
      signed negative (positional digits k)

/-- The exact value with a fixed number of decimals. -/
def fixed (places : Nat) : Floating → Text
  | .nan => "NaN"
  | .infinite negative => signed negative "inf"
  | x@(.finite negative ..) =>
    signed negative (positional (roundHalfEven (x.size * (10 : Rat) ^ places)).toNat (-places))

/-! ## Checks by evaluation -/

example : positional 1234 (-2) = "12.34".toList := by decide
example : positional 5 (-3) = "0.005".toList := by decide
example : positional 12 3 = "12000".toList := by decide

example : (Format.single.ofDecimal false 9 (-1)).shortest .single = "0.9".toList := by
  decide +kernel
example : (Format.single.ofDecimal false 333333333333 (-12)).shortest .single =
    "0.33333334".toList := by decide +kernel
example : (Format.single.ofInt 33554436).shortest .single = "33554436".toList := by decide +kernel
example : (Floating.finite true 0 0).shortest .single = "-0".toList := by decide +kernel
example : (Floating.finite false 1 (-2)).fixed 1 = "0.2".toList := by decide +kernel
example : (Floating.finite false 3 (-2)).fixed 1 = "0.8".toList := by decide +kernel

end Floating

end DriveShell
