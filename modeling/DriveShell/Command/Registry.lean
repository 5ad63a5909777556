import DriveShell.Command.Redirect
import DriveShell.Command.Shell
import DriveShell.Command.Words
import DriveShell.Text.LetterCase

/-!
# Commands and their registry

A command has a name, other spellings of it, words for the help, the least number
of arguments, and what it does.  A registry is a sequence of commands in the
order of registration.  A verb, in any case of its letters, is answered by the
last command registered under it.

`help` is no command of a registry, as it looks at all of them.  Whatever is
registered, the verb `help` is answered by the registry itself.

`runLine` runs a command line: it is cut into words, a redirection is taken out,
the first word is looked up and the command runs with the others.  Only when it
succeeded does the redirection write its output.
-/

namespace DriveShell

/-- A command. -/
structure Command where
  /-- The verb it is listed under. -/
  name : Text
  /-- Other verbs that it answers to. -/
  aliases : List Text := []
  /-- What it does, in a line. -/
  description : Text
  /-- How it is called. -/
  usage : Text
  /-- Some calls of it. -/
  sample : Option Text := none
  /-- With fewer arguments it is malformed. -/
  leastArguments : Nat := 0
  /-- What it does with its arguments. -/
  run : List Text → Shell Output

/-- The verbs of a command in small letters, its name first. -/
def Command.spellings (command : Command) : List Text :=
  Text.lower command.name :: command.aliases.map Text.lower

/-- A sequence of commands in the order of registration. -/
structure Registry where
  /-- The commands, the earliest first. -/
  commands : List Command := []

namespace Registry

/-- The registry with one more command. -/
def register (registry : Registry) (command : Command) : Registry :=
  ⟨registry.commands ++ [command]⟩

/-- The last command registered under a verb. -/
def lookup (registry : Registry) (verb : Text) : Option Command :=
  registry.commands.reverse.find? (·.spellings.contains (Text.lower verb))

/-- The verb that the registry answers itself. -/
def helpVerb : Text := "help"

/-- Whether a verb asks for help. -/
def isHelp (verb : Text) : Bool := Text.lower verb = helpVerb

/-- The name that a verb is listed under. -/
def canonicalVerb (registry : Registry) (verb : Text) : Option Text :=
  if isHelp verb then some helpVerb else (registry.lookup verb).map (·.name)

/-! ## The verbs in order -/

/-- Whether one text comes before another or equals it, character by character. -/
def atMost : Text → Text → Bool
  | [], _ => true
  | _ :: _, [] => false
  | c :: s, d :: t => if c = d then atMost s t else c.toNat < d.toNat

/-- Every verb that is answered, in order: the spellings of all commands, each
once, and `help`. -/
def verbs (registry : Registry) : List Text :=
  ((registry.commands.flatMap (·.spellings)).eraseDups ++ [helpVerb]).mergeSort atMost

/-! ## Help -/

/-- How help is called. -/
def helpUsage : Text := "HELP [command]"

/-- What help does. -/
def helpDescription : Text := "Display available commands"

/-- Some calls of help. -/
def helpSample : Text := "help, help dir"

/-- A usage, a description, and a sample if there is one. -/
def entry (usage description : Text) (sample : Option Text) : Text :=
  let line := usage ++ " - " ++ description
  match sample with
  | none => line
  | some sample => line ++ "\nExample: " ++ sample

/-- The width of the column of usages: one more than the bytes of the longest. -/
def usageWidth (registry : Registry) : Nat :=
  (registry.commands.map (Text.byteSize ·.usage)).foldl max (Text.byteSize helpUsage) + 1

/-- A row of the overview: a usage filled to the width, and a description. -/
def overviewRow (width : Nat) (usage description : Text) : Text :=
  List.rightpad width ' ' usage ++ "- " ++ description ++ ['\n']

/-- The overview of all commands in the order of registration, help last. -/
def overview (registry : Registry) : Text :=
  let width := registry.usageWidth
  "Available Commands:\n\n"
    ++ registry.commands.flatMap (fun command =>
      overviewRow width command.usage command.description)
    ++ overviewRow width helpUsage helpDescription
    ++ "\nNatural Language Commands:\n"
    ++ "Try: \"show files\", \"create folder test\", \"go to Documents\""

/-- The help on a verb, or the overview. -/
def help (registry : Registry) (topic : Option Text) : Text :=
  match topic with
  | none => registry.overview
  | some verb =>
    if isHelp verb then entry helpUsage helpDescription (some helpSample)
    else match registry.lookup verb with
      | some command => entry command.usage command.description command.sample
      | none => "This command is not supported by the help utility."

/-! ## Running -/

/-- Runs a verb with its arguments. -/
def execute (registry : Registry) (verb : Text) (arguments : List Text) : Shell Output :=
  if isHelp verb then return .text (registry.help arguments.head?)
  else match registry.lookup verb with
    | none => throw (.unrecognized verb)
    | some command =>
      if arguments.length < command.leastArguments then throw .malformed
      else command.run arguments

/-- Runs the words of a command line and redirects the output. -/
def runWords (registry : Registry) (words : List Text) (redirect : Option Redirect) :
    Shell Output :=
  match words with
  | [] => return .none
  | verb :: arguments => do
    let output ← registry.execute verb arguments
    match redirect with
    | none => return output
    | some redirect =>
      Shell.change (redirect.apply output.redirected)
      return .none

/-- Runs a command line. -/
def runLine (registry : Registry) (line : Text) : Shell Output := do
  let words ← Shell.ofExcept (Words.ofLine line)
  let (words, redirect) ← Shell.ofExcept (Redirect.extract words)
  registry.runWords words redirect

end Registry

end DriveShell
