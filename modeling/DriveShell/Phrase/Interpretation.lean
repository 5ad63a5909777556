import DriveShell.Phrase.Rule
import DriveShell.Phrase.Vocabulary

/-!
# Interpretations

An interpretation is the command line that an input stands for, how sure that
reading is, and a sentence about it.  An input takes one of three routes.  If its
first word is a known verb it stands for itself.  Otherwise the first rule for
phrases that fits gives the command line.  Failing that, it stands for itself,
with little confidence.

Confidence never keeps a command from running.  It only decides about a hint.
-/

namespace DriveShell

/-- How an input is read. -/
inductive Route
  /-- It begins with a known verb. -/
  | direct
  /-- It is a phrase. -/
  | phrase (rule : Rule) (captures : Captures)
  /-- Nothing is known about it. -/
  | fallback

/-- How a trimmed input is read. -/
def Route.of (input : Text) : Route :=
  if Vocabulary.opensWithVerb input then .direct
  else match Rule.first? input with
    | some (rule, captures) => .phrase rule captures
    | none => .fallback

/-- What an input stands for. -/
structure Interpretation where
  /-- The command line. -/
  command : Text
  /-- How sure the reading is. -/
  confidence : Floating
  /-- A sentence about the reading. -/
  explanation : Text
deriving DecidableEq

namespace Interpretation

/-- The confidence of an input that begins with a known verb. -/
def directConfidence : Floating := .one

/-- The confidence of an input that nothing is known about. -/
def fallbackConfidence : Floating := Format.single.ofDecimal false 1 (-1)

/-- What a trimmed input stands for by its route. -/
def ofRoute (home input : Text) : Route → Interpretation
  | .direct => ⟨input, directConfidence, "Direct command recognized"⟩
  | .phrase rule captures =>
    let command := rule.command home captures
    ⟨command, rule.confidence, "Interpreted \"" ++ input ++ "\" as \"" ++ command ++ "\""⟩
  | .fallback => ⟨input, fallbackConfidence, "Command not recognized - executing as-is"⟩

/-- What an input stands for. -/
def ofInput (home input : Text) : Interpretation :=
  let input := Text.trim input
  ofRoute home input (.of input)

/-! ## Checks by evaluation -/

example : (ofInput [] "go to 'my docs'").command = "cd my docs".toList := by decide +kernel
example : (ofInput [] "show memory usage").command = "type memory usage".toList := by
  decide +kernel
example : (ofInput "D:\\Data" "back home").command = "cd D:\\Data".toList := by decide +kernel
example : (ofInput [] "touch todo.md").command = "echo > todo.md".toList := by decide +kernel
example : (ofInput [] "  DIR x ").command = "DIR x".toList := by decide +kernel

end Interpretation

end DriveShell
