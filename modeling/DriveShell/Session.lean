import DriveShell.Command.Builtin
import DriveShell.FileSystem.Reference
import DriveShell.Phrase.Interpretation
import DriveShell.Phrase.Suggestion

/-!
# Sessions

A session takes inputs one by one.  Each is read as a command line, run, and
answered with lines to show: the echoed input behind the prompt, a hint if the
reading deserves one, and the output or the error.

A session remembers its inputs (the history, where an input equal to the one
before it is not repeated) and the lines it has shown since the display was last
cleared (the transcript, which begins with a banner).  A blank input is ignored.
Clearing the display empties the transcript and answers with no lines at all.

A session is finished when a command line succeeds whose first word, cut at
blanks, is listed under `exit`.  It still takes inputs after that.
-/

namespace DriveShell

/-- A line that a session shows. -/
inductive Line
  /-- The echo of an input. -/
  | command (t : Text)
  /-- What a command put out. -/
  | output (t : Text)
  /-- Why a command failed. -/
  | error (t : Text)
  /-- The banner, or a hint. -/
  | info (t : Text)
deriving DecidableEq

/-- The answer to one input. -/
structure Submission where
  /-- The lines to show, in order. -/
  lines : List Line
  /-- Whether the display is cleared.  Then there are no lines. -/
  cleared : Bool
  /-- Whether the command line succeeded. -/
  success : Bool
deriving DecidableEq

/-- What a session remembers. -/
structure Session where
  /-- The settings and the host. -/
  scene : Scene
  /-- The file system and the calls to the host. -/
  world : World
  /-- The inputs, the earliest first, without immediate repetitions. -/
  history : List Text := []
  /-- The lines shown since the display was cleared, the earliest first. -/
  transcript : List Line
  /-- Whether an exit has succeeded. -/
  finished : Bool := false

namespace Session

/-- What a session shows first. -/
def banner : Text :=
  MachineCommands.systemBanner ++
    ("\n(c) Microsoft Corporation. All rights reserved.\n\n"
      ++ "CodeMate Terminal Emulator - Hackathon Project\n"
      ++ "Type \"help\" for available commands or try natural language like \"show files\"\n")

/-- The session over the reference forest, if the settings allow one. -/
def start (config : Config) (host : Host) : Except Failure Session := do
  config.check
  let files ← FileSystem.start Reference.drives config
  return { scene := ⟨config, host⟩, world := { files := files }, transcript := [.info banner] }

/-- The settings. -/
def config (s : Session) : Config := s.scene.config

/-- The current path. -/
def cwd (s : Session) : Text := s.world.files.cwd

/-- What stands in front of an input. -/
def prompt (s : Session) : Text := s.cwd ++ ['>']

/-- The session with the clock of its host stopped at another time. -/
def atTime (s : Session) (time : CivilTime) : Session :=
  { s with scene := { s.scene with host := s.scene.host.atTime time } }

/-- How an input would be read. -/
def explain (s : Session) (input : Text) : Interpretation := .ofInput s.config.home input

/-- The candidates that complete an input, as many as are shown. -/
def suggestions (s : Session) (input : Text) : List Text :=
  (Suggestion.complete s.config.suggestionLimit input).take s.config.suggestionsShown

/-! ## The history -/

/-- The history with one more input, unless it repeats the last one. -/
def remember (history : List Text) (input : Text) : List Text :=
  if history.getLast? = some input then history else history ++ [input]

/-- The rows of a history from a number on. -/
def numbered (number : Nat) : List Text → List Text
  | [] => []
  | input :: inputs =>
    (Text.ofNat number ++ "  " ++ input) :: numbered (number + 1) inputs

/-- The history as a numbered list. -/
def historyText (history : List Text) : Text :=
  if history = [] then "No commands in history." else Text.join ['\n'] (numbered 1 history)

/-! ## Taking an input -/

/-- Whether the first word of a command line is listed under the verb that ends
a session. -/
def asksToExit (command : Text) : Bool :=
  ((Text.firstWord? command).bind Registry.builtin.canonicalVerb) =
    some TerminalCommands.exitVerb

/-- The lines for what a command line gave. -/
def resultLines (history : List Text) : Except Failure Output → List Line
  | .ok (.text t) => if t = [] then [] else [.output t]
  | .ok .history => [.output (historyText history)]
  | .ok _ => []
  | .error failure => [.error failure.message]

/-- The echo of an input and the hint about its reading. -/
def opening (s : Session) (input : Text) (reading : Interpretation) : List Line :=
  .command (s.prompt ++ input) ::
    (if s.config.wantsHint reading.confidence then [.info ("💡 " ++ reading.explanation)] else [])

/-- The answer to an input and the session after it.  A blank input gets none. -/
def submit (s : Session) (input : Text) : Option Submission × Session :=
  let input := Text.trim input
  if input = [] then (none, s)
  else
    let history := remember s.history input
    let reading := s.explain input
    let (result, world) := (Registry.builtin.runLine reading.command).outcome s.scene s.world
    let after := { s with world := world, history := history }
    match result with
    | .ok .clear =>
      (some { lines := [], cleared := true, success := true }, { after with transcript := [] })
    | result =>
      let lines := s.opening input reading ++ resultLines history result
      let success := result.isOk
      (some { lines := lines, cleared := false, success := success },
        { after with
          transcript := s.transcript ++ lines
          finished := s.finished || (success && asksToExit reading.command) })

/-! ## Checks by evaluation -/

example : remember ["pwd"] "pwd" = (["pwd"] : List Text) := by decide
example : historyText ["pwd", "dir"] = "1  pwd\n2  dir".toList := by decide
example : asksToExit "EXIT now" = true := by decide +kernel

end Session

end DriveShell
