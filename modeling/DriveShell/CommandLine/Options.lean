import DriveShell.Failure

/-!
# Options

The program is called with options: `-c` runs one line, `--explain` shows how an
input is read, and `--config` names a file with settings.  Without `-c` and
`--explain` it takes inputs until they end.  Of several options of one kind the
last counts.

All options are read before anything else is done, so an unknown option is
reported even if an earlier one names a file that is missing.

What ends the program early is a `Complaint`: a message, and the chain of causes
beneath it.
-/

namespace DriveShell

/-- What the program is to do. -/
inductive Mode
  /-- Take inputs until they end. -/
  | interactive
  /-- Run one line. -/
  | oneShot (line : Text)
  /-- Show how an input is read. -/
  | explain (input : Text)
deriving DecidableEq

/-- What the program was called with. -/
structure Options where
  /-- The file with settings. -/
  configPath : Option Text := none
  /-- What to do. -/
  mode : Mode := .interactive
deriving DecidableEq

/-- Why the program ends early. -/
structure Complaint where
  /-- What went wrong. -/
  message : Text
  /-- Why, the nearest cause first. -/
  causes : List Text := []
deriving DecidableEq

namespace Options

/-- The options that some arguments add to others. -/
def read (options : Options) : List Text → Except Complaint Options
  | [] => .ok options
  | argument :: rest =>
    if argument = "--config".toList then
      match rest with
      | [] => .error { message := "--config needs a file path" }
      | path :: rest => read { options with configPath := some path } rest
    else if argument = "-c".toList then
      match rest with
      | [] => .error { message := "-c needs a command line" }
      | line :: rest => read { options with mode := .oneShot line } rest
    else if argument = "--explain".toList then
      match rest with
      | [] => .error { message := "--explain needs some text" }
      | input :: rest => read { options with mode := .explain input } rest
    else
      .error { message :=
        "unknown argument '" ++ argument ++ "' (try -c, --explain or --config)" }

/-- The options that the program was called with. -/
def ofArguments (arguments : List Text) : Except Complaint Options := read {} arguments

/-! ## Checks by evaluation -/

example : ofArguments ["--config", "x", "-c", "dir"] = .ok ⟨some "x", .oneShot "dir"⟩ := by rfl
example : ofArguments ["-c"] = .error ⟨"-c needs a command line", []⟩ := by rfl

end Options

namespace Complaint

/-- The complaint about a failure, with the cause beneath it. -/
def ofFailure (failure : Failure) : Complaint := ⟨failure.message, failure.cause?.toList⟩

/-- The complaint about something larger that failed because of another complaint. -/
def within (message : Text) (inner : Complaint) : Complaint :=
  ⟨message, inner.message :: inner.causes⟩

/-- A cause behind a mark, its further lines filled to the width of the mark. -/
def indented (mark cause : Text) : Text :=
  mark ++ cause.flatMap fun c =>
    if c = '\n' then c :: List.replicate mark.length ' ' else [c]

/-- The causes from a number on, each behind its number. -/
def numberedCauses (number : Nat) : List Text → List Text
  | [] => []
  | cause :: causes =>
    indented (List.leftpad 5 ' ' (Text.ofNat number) ++ ": ") cause ::
      numberedCauses (number + 1) causes

/-- The lines below the message: nothing, one cause, or several with numbers. -/
def causeLines : List Text → List Text
  | [] => []
  | [cause] => [[], "Caused by:", indented "    " cause]
  | causes => [] :: "Caused by:" :: numberedCauses 0 causes

/-- The complaint as it is printed. -/
def text (c : Complaint) : Text :=
  Text.join ['\n'] (("Error: " ++ c.message) :: causeLines c.causes) ++ ['\n']

/-! ## Checks by evaluation -/

example : text ⟨"a", ["b\nc"]⟩ = "Error: a\n\nCaused by:\n    b\n    c\n".toList := by decide
example : text ⟨"a", ["b", "c"]⟩ =
    "Error: a\n\nCaused by:\n    0: b\n    1: c\n".toList := by decide

end Complaint

end DriveShell
