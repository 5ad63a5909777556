/-!
# Text

A text is the list of its characters.  Everything the shell reads, stores and
prints is a text: paths, names, file contents, command lines and messages.
Lists make every operation here a structural recursion, so a statement about a
text is an induction over its characters.

Strings occur only as literals and at the outer layer.  A literal where a text
is expected stands for the list of its characters.

`split` cuts a text at every separator and always gives at least one piece, so
it is given with its first piece apart (`pieces`).  `join` is its inverse on
pieces without the separator.
-/

namespace DriveShell

/-- A text is the list of its characters. -/
abbrev Text := List Char

/-- A literal stands for the text of its characters. -/
instance : Coe String Text := ⟨String.toList⟩

namespace Text

/-! ## Sizes and figures -/

/-- The number of bytes a text takes in UTF-8. -/
def byteSize : Text → Nat
  | [] => 0
  | c :: rest => c.utf8Size + byteSize rest

@[simp] theorem byteSize_nil : byteSize [] = 0 := rfl

@[simp] theorem byteSize_cons (c : Char) (t : Text) :
    byteSize (c :: t) = c.utf8Size + byteSize t := rfl

/-- The decimal digits of a number, without leading zeros. -/
def ofNat (n : Nat) : Text := Nat.toDigits 10 n

/-- The decimal digits of a number, filled with zeros to a width. -/
def zeroPadded (width n : Nat) : Text := List.leftpad width '0' (ofNat n)

/-! ## Splitting and joining -/

/-- The piece before the first separator and the pieces after it. -/
def pieces (separator : Char) : Text → Text × List Text
  | [] => ([], [])
  | c :: rest =>
    let (first, others) := pieces separator rest
    if c = separator then ([], first :: others) else (c :: first, others)

/-- The pieces between separators.  There is one more than there are separators. -/
def split (separator : Char) (t : Text) : List Text :=
  (pieces separator t).1 :: (pieces separator t).2

@[simp] theorem split_nil (separator : Char) : split separator [] = [[]] := rfl

theorem split_ne_nil (separator : Char) (t : Text) : split separator t ≠ [] :=
  List.cons_ne_nil _ _

/-- The texts one after another, with a separator between neighbours. -/
def join (separator : Text) (texts : List Text) : Text := List.intercalate separator texts

/-! ## Parts of a text -/

/-- Whether `part` occurs anywhere in the text. -/
def occursIn (part : Text) : Text → Bool
  | [] => part.isEmpty
  | c :: rest => part.isPrefixOf (c :: rest) || occursIn part rest

/-- The text without the longest run at its end whose characters all pass the test. -/
def dropEndWhile (test : Char → Bool) (t : Text) : Text := (t.reverse.dropWhile test).reverse

/-- The text without a given beginning, if it has that beginning. -/
def dropBeginning? : (beginning : Text) → Text → Option Text
  | [], t => some t
  | _ :: _, [] => none
  | b :: beginning, c :: rest => if b = c then dropBeginning? beginning rest else none

/-! ## Checks by evaluation -/

example : split '\\' "C:\\Users\\" = ["C:".toList, "Users".toList, []] := by decide
example : join ", " ["a", "b", "c"] = "a, b, c".toList := by decide
example : zeroPadded 4 70 = "0070".toList := by decide
example : byteSize "é→𝄞" = 9 := by decide
example : occursIn "an" "banana" = true := by decide
example : dropBeginning? "..\\" "..\\x" = some "x".toList := by decide

end Text

end DriveShell
