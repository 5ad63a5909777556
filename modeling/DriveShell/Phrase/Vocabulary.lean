import DriveShell.Text.Blank
import DriveShell.Text.LetterCase

/-!
# The vocabulary

Four lists say which words the shell knows: the verbs, other spellings of verbs,
phrases offered as suggestions, and the spellings that also open a phrase.

An input whose first word is a known verb runs as it was typed.  A spelling that
also opens a phrase is no known verb here, so that `rm folder x` is read as a
phrase and not as the verb.
-/

namespace DriveShell

namespace Vocabulary

/-- The verbs, in the order in which they are offered. -/
def verbs : List Text :=
  ["dir", "cd", "pwd", "mkdir", "rmdir", "del", "type", "copy", "echo", "tree", "tasklist",
    "systeminfo", "mem", "cls", "help", "ver", "date", "time", "whoami", "hostname", "history",
    "exit"]

/-- Other spellings of verbs. -/
def aliases : List Text :=
  ["ls", "chdir", "md", "rd", "rm", "erase", "cat", "cp", "ps", "cpu", "memory", "clear",
    "version"]

/-- Phrases that are offered after the verbs. -/
def phrases : List Text :=
  ["show files", "create folder", "go to Documents", "show memory usage", "list processes",
    "current directory", "clear screen", "show cpu usage", "display tree structure"]

/-- The other spellings that also open a phrase. -/
def phraseAliases : List Text := ["rm", "cat"]

/-- Whether an input that begins with this word runs as it was typed. -/
def isKnownVerb (word : Text) : Bool :=
  let word := Text.lower word
  verbs.contains word || (aliases.contains word && !phraseAliases.contains word)

/-- Whether the first word of an input is a known verb. -/
def opensWithVerb (input : Text) : Bool := (Text.firstWord? input).any isKnownVerb

/-! ## Checks by evaluation -/

example : isKnownVerb "Erase" = true := by decide
example : isKnownVerb "CAT" = false := by decide
example : isKnownVerb "" = false := by decide
example : ∀ word ∈ phraseAliases, word ∈ aliases := by decide
example : ∀ word ∈ aliases, word ∉ verbs := by decide

end Vocabulary

end DriveShell
