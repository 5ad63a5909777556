import DriveShell.Text.Basic

/-!
# Blanks

A blank is a character with the Unicode property `White_Space`.  The property
has twenty-five members, so it is given as a list of ranges.  Blanks separate
words, surround nothing (`trim`), and fill the gaps of a phrase.
-/

namespace DriveShell

namespace Text

/-- The characters with the Unicode property `White_Space`, as ranges of code points. -/
def blankRanges : List (Nat × Nat) :=
  [(0x9, 0xD), (0x20, 0x20), (0x85, 0x85), (0xA0, 0xA0), (0x1680, 0x1680), (0x2000, 0x200A),
    (0x2028, 0x2029), (0x202F, 0x202F), (0x205F, 0x205F), (0x3000, 0x3000)]

/-- Whether a character is a blank. -/
def isBlank (c : Char) : Bool :=
  blankRanges.any fun (first, last) => first ≤ c.toNat && c.toNat ≤ last

/-- The text without blanks at its beginning and its end. -/
def trim (t : Text) : Text := dropEndWhile isBlank (t.dropWhile isBlank)

/-- The first word: the first run of characters that are not blank. -/
def firstWord? (t : Text) : Option Text :=
  match t.dropWhile isBlank with
  | [] => none
  | c :: rest => some ((c :: rest).takeWhile (!isBlank ·))

/-! ## Checks by evaluation -/

example : (blankRanges.map fun (first, last) => last + 1 - first).sum = 25 := by decide
example : trim " \t a b \n" = "a b".toList := by decide
example : trim "\u3000\u2003" = [] := by decide
example : firstWord? "  cd  .." = some "cd".toList := by decide
example : firstWord? "   " = none := by decide

end Text

end DriveShell
