import DriveShell.FileSystem.Basic

/-!
# Redirections

A word that begins with `>` sends the output of a command line into a file.  The
name of the file is what follows the operator in the same word, or else the next
word.  The words before and after stay with the command.  Two or more `>` append,
and one writes anew.

Only the first such word is an operator.  Later ones stay with the command.

The name must be free of backslash, slash and colon, and must not lead to a
directory.  What is appended begins on a new line, except in an empty file.
-/

namespace DriveShell

/-- Where the output of a command line goes. -/
structure Redirect where
  /-- The name of the file. -/
  target : Text
  /-- Whether the file keeps its content. -/
  append : Bool
deriving DecidableEq

namespace Redirect

/-- The name that is glued to an operator. -/
def glued (operator : Text) : Text := operator.dropWhile (· = '>')

/-- Whether an operator appends. -/
def appends (operator : Text) : Bool := ['>', '>'].isPrefixOf operator

/-- The words of the command and the redirection among some words. -/
def extract : List Text → Except Failure (List Text × Option Redirect)
  | [] => .ok ([], none)
  | word :: words =>
    if word.head? = some '>' then
      if glued word ≠ [] then .ok (words, some ⟨glued word, appends word⟩)
      else match words with
        | [] => .error .malformed
        | target :: words => .ok (words, some ⟨target, appends word⟩)
    else (extract words).map fun (words, redirect) => (word :: words, redirect)

/-- What the file holds after some output is sent to a node that may be there. -/
def content (redirect : Redirect) (output : Text) : Option Node → Text
  | some (.file existing) =>
    if redirect.append ∧ existing ≠ [] then existing ++ '\n' :: output else output
  | _ => output

/-- Sends some output into the file. -/
def apply (redirect : Redirect) (output : Text) (fs : FileSystem) : Except Failure FileSystem :=
  if Path.hasReserved redirect.target then .error (.invalidName redirect.target)
  else
    let node := fs.find? redirect.target
    if node.any Node.isDirectory then .error (.accessDenied redirect.target)
    else .ok (fs.writeFile redirect.target (redirect.content output node))

/-! ## Checks by evaluation -/

example : extract ["echo", ">>x", "a", ">b"] =
    .ok (["echo".toList, "a".toList, ">b".toList], some ⟨"x", true⟩) := by rfl
example : extract ["echo", ">", "x"] = .ok (["echo".toList], some ⟨"x", false⟩) := by rfl
example : extract ["echo", ">"] = .error .malformed := by rfl

end Redirect

end DriveShell
