import DriveShell.Phrase.Vocabulary

/-!
# Suggestions

The verbs and then the phrases are offered to complete an input.  An empty input
is offered all of them.  Otherwise those that contain the input in any case are
offered, up to a limit.

The candidates are ASCII, so of an input only the letters with an ASCII small
form can be found in one: the ASCII letters and the Kelvin sign.
-/

namespace DriveShell

namespace Suggestion

/-- Everything that is offered, in order. -/
def candidates : List Text := Vocabulary.verbs ++ Vocabulary.phrases

/-- The small form of a character, as far as it is ASCII. -/
def small (c : Char) : Char := if c = '\u212A' then 'k' else c.toLower

/-- The candidates that complete an input. -/
def complete (limit : Nat) (input : Text) : List Text :=
  if input = [] then candidates
  else (candidates.filter fun c => Text.occursIn (input.map small) (Text.lower c)).take limit

/-! ## Checks by evaluation -/

example : candidates.length = 31 := by decide
example : complete 10 "tree" = (["tree", "display tree structure"] : List Text) := by decide
example : complete 2 "D" = (["dir", "cd"] : List Text) := by decide

end Suggestion

end DriveShell
