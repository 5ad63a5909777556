import DriveShell.Config.Basic
import DriveShell.Toml.Document

/-!
# Settings from a document

A document sets the settings it names, and the others keep their defaults.  Keys
that are no settings are passed over, whatever they hold.  A setting of the wrong
type spoils the document: a text where a number belongs, a negative size, a
number among names.  A threshold may be written as an integer.

A document that cannot be read is reported before any setting is checked.
-/

namespace DriveShell

namespace Config

/-- A setting of a document, or its default. -/
def setting {α : Type} (read : Toml.Value → Option α) (key : Text) (default : α)
    (table : Toml.Table) : Option α :=
  match table.get? key with
  | none => some default
  | some value => read value

/-- A text. -/
def readText : Toml.Value → Option Text
  | .string t => some t
  | _ => none

/-- A size. -/
def readSize : Toml.Value → Option Nat
  | .integer n => if n < 0 then none else some n.toNat
  | _ => none

/-- A threshold. -/
def readThreshold : Toml.Value → Option Floating
  | .integer n => some (Format.single.ofInt n)
  | .float x => some (x.convert .single)
  | _ => none

/-- Some texts. -/
def readTexts : Toml.Value → Option (List Text)
  | .array items => items.mapM readText
  | _ => none

/-- The settings that a table names, over the defaults. -/
def ofTable (table : Toml.Table) : Option Config := do
  let default : Config := {}
  return {
    hostName := ← setting readText "host_name" default.hostName table
    userDomain := ← setting readText "user_domain" default.userDomain table
    userName := ← setting readText "user_name" default.userName table
    home := ← setting readText "home" default.home table
    primaryDrive := ← setting readText "primary_drive" default.primaryDrive table
    protectedNames := ← setting readTexts "protected_names" default.protectedNames table
    volumeSerial := ← setting readText "volume_serial" default.volumeSerial table
    freeBytes := ← setting readSize "free_bytes" default.freeBytes table
    osName := ← setting readText "os_name" default.osName table
    osVersion := ← setting readText "os_version" default.osVersion table
    totalMemory := ← setting readSize "total_memory_mb" default.totalMemory table
    suggestionLimit := ← setting readSize "suggestion_limit" default.suggestionLimit table
    suggestionsShown := ← setting readSize "suggestions_shown" default.suggestionsShown table
    hintLow := ← setting readThreshold "hint_low" default.hintLow table
    hintHigh := ← setting readThreshold "hint_high" default.hintHigh table }

/-- The checked settings of a document. -/
def ofDocument (document : Text) : Except Failure Config := do
  let some table := Toml.Table.ofDocument document
    | .error (.document "the document is malformed")
  let some config := ofTable table
    | .error (.document "a setting has the wrong type")
  config.check
  return config

/-! ## Checks by evaluation -/

example : (ofTable []).map (·.hostName) = some "CODEMATE-PC".toList := by decide

end Config

end DriveShell
