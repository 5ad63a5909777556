import DriveShell.Failure
import DriveShell.Text.Blank

/-!
# Words of a command line

A command line is a sequence of words with blanks between them.  A double quote
opens a run in which blanks belong to the word, up to the next double quote.  A
run may begin and end inside a word, and an empty run makes an empty word.  A
backslash is a character like any other.

The scan goes from left to right in one of three modes.  Each character of a word
is put in front of what the scan of the rest gives, so the words come out whole
and a line of any length is scanned in one pass.
-/

namespace DriveShell

namespace Words

/-- Where a scan stands. -/
inductive Mode
  /-- Between two words. -/
  | between
  /-- In a word, outside quotes. -/
  | inWord
  /-- In a word, inside quotes. -/
  | inQuotes
deriving DecidableEq

/-- The words with one more character at the front of the first. -/
def grow (c : Char) : List Text → List Text
  | [] => [[c]]
  | word :: words => (c :: word) :: words

/-- The words that the rest of a line gives, or nothing if a quote stays open.
Inside a word the first of them is the rest of that word. -/
def scan : Mode → Text → Option (List Text)
  | .between, [] => some []
  | .inWord, [] => some [[]]
  | .inQuotes, [] => none
  | .inQuotes, c :: rest =>
    if c = '"' then scan .inWord rest else (scan .inQuotes rest).map (grow c)
  | .inWord, c :: rest =>
    if c = '"' then scan .inQuotes rest
    else if Text.isBlank c then (scan .between rest).map ([] :: ·)
    else (scan .inWord rest).map (grow c)
  | .between, c :: rest =>
    if c = '"' then scan .inQuotes rest
    else if Text.isBlank c then scan .between rest
    else (scan .inWord rest).map (grow c)

/-- The words of a command line. -/
def ofLine (line : Text) : Except Failure (List Text) :=
  match scan .between line with
  | some words => .ok words
  | none => .error .unterminatedQuote

/-! ## Checks by evaluation -/

example : scan .between "type  \"my notes.txt\" \"\"" =
    some (["type", "my notes.txt", ""] : List Text) := by decide
example : scan .between "a\"b c\"d" = some (["ab cd"] : List Text) := by decide
example : scan .between "say \"hi" = none := by decide

end Words

end DriveShell
