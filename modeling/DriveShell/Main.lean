import DriveShell.CommandLine.Terminal
import Std.Time.DateTime.Timestamp

/-!
# The program

The outer layer: it reads the arguments, the file with settings and the inputs,
and prints what the terminal says.  Its host draws its load from a stream with a
random seed.  The clock of the machine is read when a session starts and again
with each input.
-/

namespace DriveShell

namespace Program

/-- Prints a piece of output to its channel. -/
def print : Printed → IO Unit
  | .out t => do
    let channel ← IO.getStdout
    channel.putStr (String.ofList t)
    channel.flush
  | .err t => do
    let channel ← IO.getStderr
    channel.putStr (String.ofList t)
    channel.flush

/-- Why a file could not be read, in the words of the operating system. -/
def reason : IO.Error → Text
  | .noFileOrDirectory .. => "No such file or directory (os error 2)"
  | .permissionDenied .. => "Permission denied (os error 13)"
  | .inappropriateType _ code _ =>
    if code = 21 then "Is a directory (os error 21)" else "Not a directory (os error 20)"
  | .userError _ => "stream did not contain valid UTF-8"
  | e => e.toString.toList

/-- The content of a file, or why it could not be read. -/
def contentOf (path : Text) : IO (Except Failure Text) := do
  try
    let content ← IO.FS.readFile (String.ofList path)
    return .ok content.toList
  catch e => return .error (.host (reason e))

/-- What the clock of the machine reads. -/
def currentTime : IO CivilTime := do
  let now ← Std.Time.Timestamp.now
  return .ofSeconds now.toSecondsSinceUnixEpoch.val.toNat

/-- A host with the current time and a random seed. -/
def currentHost : IO (Config → Host) := do
  let time ← currentTime
  let bytes ← IO.getRandomBytes 8
  let seed := bytes.foldl (fun seed byte => seed * 256 + byte.toUInt64) 0
  return fun config => .seeded seed time config.totalMemory

/-- Takes inputs until they end or one finishes the session. -/
partial def interact (s : Session) : IO Unit := do
  if s.finished then return
  let line ← (← IO.getStdin).getLine
  if line.isEmpty then return
  let input := (Terminal.linesOf line.toList).headD []
  let (pieces, s) := Terminal.answer (s.atTime (← currentTime)) input
  pieces.forM print
  interact s

/-- Does what some options ask for. -/
def execute (options : Options) : IO Outcome := do
  let host ← currentHost
  let document ← match options.configPath with
    | none => pure (.ok [])
    | some path => contentOf path
  match Terminal.begin options (fun _ => document) host with
  | .error complaint => return .ofComplaint complaint
  | .ok session =>
    match options.mode with
    | .explain input => return Terminal.runExplain session input
    | .oneShot line => return Terminal.runOnce session line
    | .interactive =>
      (Terminal.greeting session).forM print
      interact session
      return ⟨[], 0⟩

end Program

end DriveShell

/-- Runs the program on its arguments. -/
def main (arguments : List String) : IO UInt32 := do
  let outcome ← match DriveShell.Options.ofArguments (arguments.map String.toList) with
    | .error complaint => pure (DriveShell.Outcome.ofComplaint complaint)
    | .ok options => DriveShell.Program.execute options
  outcome.printed.forM DriveShell.Program.print
  return UInt32.ofNat outcome.exitCode
