import DriveShell.Command.Files
import DriveShell.Command.Machine

/-!
# The built-in commands

The shell has twenty-one commands besides `help`: nine on files, one that echoes,
eight about the machine, and three about the terminal.  A terminal command only
states a wish.  Whoever runs the shell clears the display, shows the history or
ends the session.
-/

namespace DriveShell

namespace TerminalCommands

/-- Shows its arguments. -/
def echo : Command where
  name := "echo"
  description := "Display text"
  usage := "ECHO <text>"
  sample := some "echo Hello World"
  run arguments := return .text (Text.join [' '] arguments)

/-- Wishes to clear the display. -/
def cls : Command where
  name := "cls"
  aliases := ["clear"]
  description := "Clear the terminal screen"
  usage := "CLS"
  run _ := return .clear

/-- Wishes to show the history. -/
def history : Command where
  name := "history"
  description := "Show previously entered commands"
  usage := "HISTORY"
  run _ := return .history

/-- The verb that ends a session. -/
def exitVerb : Text := "exit"

/-- Takes its leave. -/
def exit : Command where
  name := exitVerb
  description := "Close the terminal"
  usage := "EXIT"
  run _ := return .text "Goodbye!"

end TerminalCommands

/-- The built-in commands, in the order of the help. -/
def Registry.builtin : Registry where
  commands := FileCommands.all ++ [TerminalCommands.echo] ++ MachineCommands.all ++
    [TerminalCommands.cls, TerminalCommands.history, TerminalCommands.exit]

namespace Registry

/-! ## Checks by evaluation -/

example : builtin.commands.length = 21 := by decide
example : builtin.canonicalVerb "ERASE" = some "del".toList := by decide
example : builtin.canonicalVerb "Help" = some "help".toList := by decide
example : builtin.usageWidth = 28 := by decide +kernel

end Registry

end DriveShell
