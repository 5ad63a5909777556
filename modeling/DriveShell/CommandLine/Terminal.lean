import DriveShell.CommandLine.Encoding
import DriveShell.CommandLine.Options
import DriveShell.Config.Document
import DriveShell.Session

/-!
# The terminal

What the program prints goes to two channels, and errors of commands go to the
second.  The echo of an input is not printed, as a terminal shows what is typed.

`Terminal.begin` makes the session that some options ask for, from the content
of the file with settings if they name one.  An interactive session starts with
its transcript, and `Terminal.answer` takes one input.  `Terminal.run` is the
whole program on an input that is known from the start, a text of lines.  A line
ends at a line feed, together with a carriage return just before it, and what
follows the last line feed is a line if it is not empty.
-/

namespace DriveShell

/-- A piece of what the program prints. -/
inductive Printed
  /-- To the first channel. -/
  | out (t : Text)
  /-- To the second channel. -/
  | err (t : Text)
deriving DecidableEq

/-- What a run of the program printed, and its exit code. -/
structure Outcome where
  /-- What it printed, in order. -/
  printed : List Printed
  /-- The exit code. -/
  exitCode : Nat
deriving DecidableEq

namespace Outcome

/-- Everything that was printed to the first channel. -/
def stdout (o : Outcome) : Text :=
  o.printed.flatMap fun
    | .out t => t
    | .err _ => []

/-- Everything that was printed to the second channel. -/
def stderr (o : Outcome) : Text :=
  o.printed.flatMap fun
    | .out _ => []
    | .err t => t

/-- A run that ended with a complaint. -/
def ofComplaint (c : Complaint) : Outcome := ⟨[.err c.text], 1⟩

end Outcome

namespace Terminal

/-- What is printed to clear the display. -/
def clearScreen : Text := "\x1b[2J\x1b[H"

/-- What is printed for a line of a session. -/
def printed : Line → List Printed
  | .command _ => []
  | .error t => [.err (t ++ ['\n'])]
  | .output t | .info t => [.out (t ++ ['\n'])]

/-- The settings that a document holds, or what is wrong with the file. -/
def configOf (path : Text) (document : Except Failure Text) : Except Complaint Config :=
  match document.bind Config.ofDocument with
  | .ok config => .ok config
  | .error failure =>
    .error (.within ("failed to load config from " ++ path) (.ofFailure failure))

/-- The session that some options ask for. -/
def begin (options : Options) (fileAt : Text → Except Failure Text) (host : Config → Host) :
    Except Complaint Session := do
  let config ← match options.configPath with
    | none => .ok {}
    | some path => configOf path (fileAt path)
  (Session.start config (host config)).mapError .ofFailure

/-- What an interactive session prints first. -/
def greeting (s : Session) : List Printed := s.transcript.flatMap printed

/-- What an interactive session prints for an input, and the session after it. -/
def answer (s : Session) (input : Text) : List Printed × Session :=
  match s.submit input with
  | (none, s) => ([], s)
  | (some submission, s) =>
    ((if submission.cleared then [.out clearScreen] else []) ++
      submission.lines.flatMap printed, s)

/-- What an interactive session prints for some inputs, up to the one that
finishes it. -/
def answers (s : Session) : List Text → List Printed
  | [] => []
  | input :: inputs =>
    if s.finished then []
    else
      let (pieces, s) := answer s input
      pieces ++ answers s inputs

/-- The outcome of running one line. -/
def runOnce (s : Session) (line : Text) : Outcome :=
  match (s.submit line).1 with
  | none => ⟨[], 0⟩
  | some submission => ⟨submission.lines.flatMap printed, if submission.success then 0 else 1⟩

/-- The outcome of showing how an input is read. -/
def runExplain (s : Session) (input : Text) : Outcome :=
  ⟨[.out ((s.explain input).encoded ++ ['\n'])], 0⟩

/-- A line without a carriage return at its end. -/
def withoutReturn (line : Text) : Text :=
  if line.getLast? = some '\r' then line.dropLast else line

/-- The lines of a text. -/
def linesOf (input : Text) : List Text :=
  let pieces := Text.split '\n' input
  pieces.dropLast.map withoutReturn ++ (pieces.getLast?.filter (· ≠ [])).toList

/-- The outcome of the program on an input that is known from the start. -/
def run (arguments : List Text) (fileAt : Text → Except Failure Text) (host : Config → Host)
    (input : Text) : Outcome :=
  match Options.ofArguments arguments with
  | .error complaint => .ofComplaint complaint
  | .ok options =>
    match begin options fileAt host with
    | .error complaint => .ofComplaint complaint
    | .ok session =>
      match options.mode with
      | .explain input => runExplain session input
      | .oneShot line => runOnce session line
      | .interactive => ⟨greeting session ++ answers session (linesOf input), 0⟩

/-! ## Checks by evaluation -/

example : linesOf "pwd\r\nexit\n" = (["pwd", "exit"] : List Text) := by decide
example : linesOf "a\n\nb" = (["a", "", "b"] : List Text) := by decide
example : linesOf "" = [] := by decide

end Terminal

end DriveShell
