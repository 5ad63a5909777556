import DriveShell.Text.Basic

/-!
# Grouped figures

Large figures are printed with a comma between groups of three digits, counted
from the right: `1234567` is `1,234,567`.  A comma follows a digit exactly when
the number of digits after it is a positive multiple of three.
-/

namespace DriveShell

namespace Text

/-- The digits with a comma wherever a positive multiple of three digits follows. -/
def groupDigits : Text → Text
  | [] => []
  | d :: rest =>
    if rest ≠ [] ∧ rest.length % 3 = 0 then d :: ',' :: groupDigits rest
    else d :: groupDigits rest

/-- The decimal digits of a number in groups of three. -/
def grouped (n : Nat) : Text := groupDigits (ofNat n)

/-! ## Checks by evaluation -/

example : grouped 0 = "0".toList := by decide
example : grouped 999 = "999".toList := by decide
example : grouped 1000 = "1,000".toList := by decide
example : grouped 1234567 = "1,234,567".toList := by decide

end Text

end DriveShell
