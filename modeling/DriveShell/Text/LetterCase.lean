import DriveShell.Text.Basic

/-!
# Letter case

Verbs and switches are compared without regard to the case of ASCII letters.
Other letters are compared as they stand: the vocabulary of the shell is ASCII,
so a letter outside it never occurs in a verb.
-/

namespace DriveShell

namespace Text

/-- The text with ASCII capitals made small. -/
def lower (t : Text) : Text := t.map Char.toLower

@[simp] theorem lower_nil : lower [] = [] := rfl

@[simp] theorem lower_cons (c : Char) (t : Text) : lower (c :: t) = c.toLower :: lower t := rfl

@[simp] theorem length_lower (t : Text) : (lower t).length = t.length := List.length_map _

/-- Whether two texts are equal but for the case of ASCII letters. -/
def sameLetters (s t : Text) : Bool := lower s = lower t

/-! ## Checks by evaluation -/

example : lower "DIR É" = "dir É".toList := by decide
example : sameLetters "/D" "/d" = true := by decide

end Text

end DriveShell
