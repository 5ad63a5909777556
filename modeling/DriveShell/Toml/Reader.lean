import DriveShell.Text.Basic

/-!
# Readers

A reader takes something off the front of a text, or fails and takes nothing.
Readers are put together in sequence, by choice (`<|>`, the first that succeeds)
and by repetition.

`many` repeats a reader until it fails.  It stops at the latest after as many
times as the text has characters, which bounds no reader that takes at least one
character each time.
-/

namespace DriveShell

namespace Toml

/-- Something taken off the front of a text, with what is left. -/
abbrev Reader := StateT Text Option

namespace Reader

/-- One character that passes a test. -/
def one (test : Char → Bool) : Reader Char
  | [] => none
  | c :: rest => if test c then some (c, rest) else none

/-- One given character. -/
def char (c : Char) : Reader Unit := discard (one (· = c))

/-- A given text. -/
def exactly (t : Text) : Reader Unit := fun s => (Text.dropBeginning? t s).map ((), ·)

/-- The longest run of characters that pass a test, possibly empty. -/
def span (test : Char → Bool) : Reader Text := fun s => some (s.takeWhile test, s.dropWhile test)

/-- A number of characters that pass a test. -/
def exactRun (test : Char → Bool) (count : Nat) : Reader Text := fun s =>
  let found := (s.take count).takeWhile test
  if found.length = count then some (found, s.drop count) else none

/-- What a reader takes, if it succeeds. -/
def perhaps {α : Type} (r : Reader α) : Reader (Option α) := (some <$> r) <|> pure none

/-- Nothing, if a character that passes a test does not come next. -/
def notNext (test : Char → Bool) : Reader Unit := fun s =>
  if s.head?.any test then none else some ((), s)

/-- Nothing, at the end of the text. -/
def atEnd : Reader Unit := fun s => if s = [] then some ((), s) else none

/-- What a reader takes one after another, at most a number of times. -/
def upTo {α : Type} (r : Reader α) : Nat → Reader (List α)
  | 0 => pure []
  | n + 1 => do
    match ← perhaps r with
    | none => pure []
    | some a => return a :: (← upTo r n)

/-- What a reader takes one after another. -/
def many {α : Type} (r : Reader α) : Reader (List α) := fun s => upTo r s.length s

/-- What a reader takes one after another, with a separator before each but the first. -/
def separated {α : Type} (separator : Reader Unit) (r : Reader α) : Reader (List α) := do
  match ← perhaps r with
  | none => pure []
  | some a => return a :: (← many (separator *> r))

/-- What a reader takes, if it passes a test. -/
def such {α : Type} (r : Reader α) (test : α → Bool) : Reader α := do
  let a ← r
  if test a then pure a else failure

end Reader

end Toml

end DriveShell
