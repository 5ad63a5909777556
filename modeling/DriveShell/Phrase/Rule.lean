import DriveShell.Number.Floating
import DriveShell.Phrase.Pattern

/-!
# Rules for phrases

A rule says how a phrase becomes a command line: the pattern of the phrase, the
verb, the arguments, and how sure the reading is.  The rules are tried in order,
and the first whose pattern occurs in the input is taken.  So an early rule hides
a later one: `show memory usage` is read by the rule for showing a file.

An argument is a captured stretch, a fixed text, or the home.  It is trimmed and
loses its quotes, and an argument that is empty then is left out.  Trimming comes
first, so blanks inside quotes stay.
-/

namespace DriveShell

/-- Where an argument of a command line comes from. -/
inductive Part
  /-- A captured stretch, counted from zero. -/
  | captured (n : Nat)
  /-- A fixed text. -/
  | literal (t : Text)
  /-- The home of the settings. -/
  | home
deriving DecidableEq

/-- How a phrase becomes a command line. -/
structure Rule where
  /-- What the phrase looks like. -/
  pattern : Pattern
  /-- The verb of the command line. -/
  verb : Text
  /-- How sure the reading is, in tenths. -/
  tenths : Nat
  /-- The arguments of the command line. -/
  arguments : List Part := []
deriving DecidableEq

namespace Rule

/-- How sure the reading is. -/
def confidence (rule : Rule) : Floating := Format.single.ofDecimal false rule.tenths (-1)

/-- The text of an argument as it was captured or given. -/
def raw (home : Text) (captures : Captures) : Part → Text
  | .captured n => (captures[n]?).elim [] Stretch.text
  | .literal t => t
  | .home => home

/-- An argument without the blanks around it and the quotes in it. -/
def clean (argument : Text) : Text := (Text.trim argument).filter fun c => c ≠ '\x27' && c ≠ '"'

/-- The command line of a rule for what its pattern captured. -/
def command (rule : Rule) (home : Text) (captures : Captures) : Text :=
  let arguments := rule.arguments.map fun part => clean (raw home captures part)
  Text.join [' '] (rule.verb :: arguments.filter (· ≠ []))

/-! ## The rules -/

open Pattern in
/-- The rules in the order in which they are tried. -/
def all : List Rule := [
  -- directories
  { pattern := inOrder [anyWord "show" ["list", "display"], .gap,
      oneOf (plural "file") [plural "content", word "directory"]]
    verb := "dir", tenths := 9 },
  { pattern := inOrder [oneOf (phrase "go" ["to"])
      [phrase "change" ["to"], phrase "navigate" ["to"], phrase "cd" ["to"]], .gap, .capture]
    verb := "cd", tenths := 9, arguments := [.captured 0] },
  { pattern := inOrder [anyWord "create" ["make", "new"], .gap,
      anyWord "folder" ["directory"], .gap, .capture]
    verb := "mkdir", tenths := 9, arguments := [.captured 0] },
  { pattern := inOrder [anyWord "delete" ["remove", "rm"], .gap,
      anyWord "folder" ["directory"], .gap, .capture]
    verb := "rmdir", tenths := 8, arguments := [.captured 0] },
  { pattern := inOrder [anyWord "current" ["working"], .gap,
      anyWord "directory" ["folder", "path"]]
    verb := "pwd", tenths := 9 },
  -- files
  { pattern := inOrder [anyWord "show" ["display", "read", "type", "cat"], .gap,
      perhaps (.next (word "file") .gap), .capture]
    verb := "type", tenths := 8, arguments := [.captured 0] },
  { pattern := inOrder [anyWord "create" ["make", "new"], .gap, word "file", .gap, .capture]
    verb := "echo", tenths := 7, arguments := [.literal ">", .captured 0] },
  { pattern := inOrder [anyWord "copy" ["duplicate"], .gap, .capture, .gap,
      anyWord "to" ["as"], .gap, .capture]
    verb := "copy", tenths := 8, arguments := [.captured 0, .captured 1] },
  { pattern := inOrder [anyWord "delete" ["remove", "rm"], .gap,
      perhaps (.next (word "file") .gap), .capture]
    verb := "del", tenths := 8, arguments := [.captured 0] },
  -- the machine
  { pattern := inOrder [anyWord "show" ["display", "list"], .gap,
      anyWord "processes" ["running", "tasks"]]
    verb := "tasklist", tenths := 9 },
  { pattern := inOrder [anyWord "show" ["display"], .gap, anyWord "cpu" ["processor"], .gap,
      anyWord "usage" ["info"]]
    verb := "systeminfo", tenths := 9 },
  { pattern := inOrder [anyWord "show" ["display"], .gap, anyWord "memory" ["ram"], .gap,
      anyWord "usage" ["info"]]
    verb := "mem", tenths := 9 },
  { pattern := inOrder [anyWord "system" ["computer"], .gap, anyWord "info" ["information"]]
    verb := "systeminfo", tenths := 8 },
  -- the terminal
  { pattern := inOrder [anyWord "clear" ["clean"], .gap,
      anyWord "screen" ["terminal", "console"]]
    verb := "cls", tenths := 9 },
  { pattern := inOrder [anyWord "show" ["display"], .gap, anyWord "tree" ["structure"]]
    verb := "tree", tenths := 8 },
  { pattern := oneOf (word "help") [word "commands", phrase "what" ["can"]]
    verb := "help", tenths := 9 },
  { pattern := inOrder [anyWord "current" ["show"], .gap, anyWord "time" ["clock"]]
    verb := "time", tenths := 9 },
  { pattern := inOrder [anyWord "current" ["show", "today"], .gap, anyWord "date" ["day"]]
    verb := "date", tenths := 9 },
  { pattern := inOrder [anyWord "list" ["show"], .gap, .capture, .gap,
      oneOf (plural "file") [plural "content"]]
    verb := "dir", tenths := 7, arguments := [.captured 0] },
  { pattern := inOrder [anyWord "go" ["move", "switch"], .gap, anyWord "back" ["up", "parent"]]
    verb := "cd", tenths := 8, arguments := [.literal ".."] },
  { pattern := inOrder [anyWord "echo" ["print", "say"], .gap, .capture]
    verb := "echo", tenths := 8, arguments := [.captured 0] },
  -- names and versions
  { pattern := oneOf (phrase "who" ["am", "i"]) [phrase "current" ["user"]]
    verb := "whoami", tenths := 9 },
  { pattern := oneOf (phrase "computer" ["name"])
      [phrase "host" ["name"], phrase "machine" ["name"]]
    verb := "hostname", tenths := 9 },
  { pattern := inOrder [anyWord "show" ["display", "list"], .gap,
      anyWord "history" ["previous", "past"], .gap, plural "command"]
    verb := "history", tenths := 9 },
  { pattern := oneOf (phrase "what" ["version"])
      [phrase "windows" ["version"], phrase "system" ["version"]]
    verb := "ver", tenths := 9 },
  -- files, in looser words
  { pattern := inOrder [anyWord "read" ["open", "view"], .gap, .capture]
    verb := "type", tenths := 7, arguments := [.captured 0] },
  { pattern := inOrder [anyWord "make" ["create", "touch"], .gap,
      perhaps (.next (word "file") .gap), .capture]
    verb := "echo", tenths := 6, arguments := [.literal ">", .captured 0] },
  -- places
  { pattern := inOrder [perhaps (.next (word "go") .gap),
      oneOf (word "home") [phrase "back" ["home"]]]
    verb := "cd", tenths := 8, arguments := [.home] },
  { pattern := inOrder [perhaps (.next (phrase "go" ["to"]) .gap), word "desktop"]
    verb := "cd", tenths := 8, arguments := [.literal "Desktop"] },
  { pattern := inOrder [perhaps (.next (phrase "go" ["to"]) .gap), word "documents"]
    verb := "cd", tenths := 8, arguments := [.literal "Documents"] },
  { pattern := inOrder [perhaps (.next (phrase "go" ["to"]) .gap), word "downloads"]
    verb := "cd", tenths := 8, arguments := [.literal "Downloads"] }]

/-- The first rule whose pattern occurs in an input, with what it captures. -/
def first? (input : Text) : Option (Rule × Captures) :=
  all.findSome? fun rule => (rule.pattern.search? input).map (rule, ·)

/-! ## Checks by evaluation -/

example : all.length = 31 := by decide
example : clean " \"a b\" " = "a b".toList := by decide

end Rule

end DriveShell
