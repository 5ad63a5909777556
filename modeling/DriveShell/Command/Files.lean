import DriveShell.Command.Registry

/-!
# Commands on files and directories

Nine commands show, move through and change the file system.

Switches are told from operands by their first character: a slash, and for the
commands that remove also a dash.  `dir` and `tree` take the first operand as
their path.  `cd` takes all arguments as one path with blanks in it.  `type`,
`mkdir` and `copy` take their arguments as they come.

`dir` reads the clock before it looks at the directory, so a clock that fails is
reported rather than a missing directory.
-/

namespace DriveShell

namespace FileCommands

/-- The first argument that does not begin with a slash. -/
def firstPath (arguments : List Text) : Option Text := arguments.find? (·.head? ≠ some '/')

/-- The first argument that begins with neither a slash nor a dash. -/
def firstOperand (arguments : List Text) : Option Text :=
  arguments.find? fun a => a.head? ≠ some '/' && a.head? ≠ some '-'

/-- Whether the arguments ask to remove a directory as a whole. -/
def isRecursive (arguments : List Text) : Bool :=
  arguments.any fun a => Text.sameLetters a "/s" || Text.sameLetters a "-rf" ||
    Text.sameLetters a "-r"

/-- The arguments without a leading switch for the drive. -/
def withoutDriveSwitch : List Text → List Text
  | [] => []
  | a :: rest => if Text.sameLetters a "/d" then rest else a :: rest

/-! ## Showing and moving -/

/-- Lists a directory. -/
def dir : Command where
  name := "dir"
  aliases := ["ls"]
  description := "Display directory contents"
  usage := "DIR [path]"
  sample := some "dir, dir Documents"
  run arguments := do
    let time ← Shell.clock
    let listing ← Shell.ask (·.list (firstPath arguments))
    return .text (listing.stamped time.stamp).text

/-- Enters a directory, or shows the current path. -/
def cd : Command where
  name := "cd"
  aliases := ["chdir"]
  description := "Change current directory"
  usage := "CD [path]"
  sample := some "cd Documents, cd .."
  run arguments := do
    match withoutDriveSwitch arguments with
    | [] => return .text (← Shell.files).cwd
    | words =>
      Shell.change (·.enter (Text.join [' '] words))
      return .none

/-- Shows the current path. -/
def pwd : Command where
  name := "pwd"
  description := "Display current directory path"
  usage := "PWD"
  run _ := return .text (← Shell.files).cwd

/-- Draws a directory below a banner. -/
def tree : Command where
  name := "tree"
  description := "Display directory structure as a tree"
  usage := "TREE [path]"
  sample := some "tree, tree D:\\Games"
  run arguments := do
    let path := firstPath arguments
    let drawing ← Shell.ask (·.draw path)
    let banner := "Folder PATH listing for volume Windows\nVolume serial number is "
      ++ (← Shell.config).volumeSerial ++ '\n' :: (← Shell.files).target path
    let body := Text.dropEndWhile (· = '\n') drawing
    return .text (if body = [] then banner else banner ++ '\n' :: body)

/-- Shows the content of a file. -/
def type : Command where
  name := "type"
  aliases := ["cat"]
  description := "Display file contents"
  usage := "TYPE <file>"
  sample := some "type readme.txt"
  leastArguments := 1
  run
    | [] => throw .malformed
    | path :: _ => return .text (← Shell.ask (·.read path))

/-! ## Changing -/

/-- Makes a directory. -/
def mkdir : Command where
  name := "mkdir"
  aliases := ["md"]
  description := "Create a new directory"
  usage := "MKDIR <name>"
  sample := some "mkdir newfolder"
  leastArguments := 1
  run
    | [] => throw .malformed
    | name :: _ => do
      Shell.change (·.makeDirectory name)
      return .none

/-- Removes the first operand, as a whole if a switch says so. -/
def removeOperand (arguments : List Text) : Shell Output := do
  match firstOperand arguments with
  | none => throw .malformed
  | some name =>
    Shell.change (·.remove name (isRecursive arguments))
    return .none

/-- Removes a directory. -/
def rmdir : Command where
  name := "rmdir"
  aliases := ["rd"]
  description := "Remove a directory"
  usage := "RMDIR <name>"
  sample := some "rmdir oldfolder, rmdir /s projects"
  leastArguments := 1
  run := removeOperand

/-- Removes a file. -/
def del : Command where
  name := "del"
  aliases := ["rm", "erase"]
  description := "Delete a file"
  usage := "DEL <file>"
  sample := some "del oldfile.txt"
  leastArguments := 1
  run := removeOperand

/-- Copies a file to a name in the current directory that is no directory. -/
def copyTo (source destination : Text) (fs : FileSystem) : Except Failure FileSystem :=
  if Path.hasReserved destination then .error (.invalidName destination)
  else if (fs.find? destination).any Node.isDirectory then .error (.accessDenied destination)
  else fs.copyFile source destination

/-- Copies a file. -/
def copy : Command where
  name := "copy"
  aliases := ["cp"]
  description := "Copy a file"
  usage := "COPY <source> <destination>"
  sample := some "copy file1.txt file2.txt"
  leastArguments := 2
  run
    | source :: destination :: _ => do
      Shell.change (copyTo source destination)
      return .text "        1 file(s) copied."
    | _ => throw .malformed

/-- The commands on files and directories, in the order of the help. -/
def all : List Command := [dir, cd, pwd, mkdir, rmdir, del, type, copy, tree]

/-! ## Checks by evaluation -/

example : firstPath ["/w", "-x"] = some "-x".toList := by decide
example : firstOperand ["-rf", "a"] = some "a".toList := by decide
example : isRecursive ["a", "-RF"] = true := by decide
example : withoutDriveSwitch ["/D", "D:"] = (["D:"] : List Text) := by decide

end FileCommands

end DriveShell
