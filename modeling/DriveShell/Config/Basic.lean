import DriveShell.Failure
import DriveShell.Number.Decimal
import DriveShell.Path

/-!
# Settings

The settings of one session: who and where the machine is, how its volume looks,
and which interpretations deserve a hint.  Every setting has a default, so a
session without settings is complete.

`Config.check` refuses settings that the shell cannot honour.  It looks at the
primary drive, the home, the hint thresholds and the memory in this order and
reports the first that is wrong.  Nothing else checks a setting: a file system
can be opened with settings that were never checked.
-/

namespace DriveShell

/-- The settings of one session. -/
structure Config where
  /-- The name of the machine. -/
  hostName : Text := "CODEMATE-PC"
  /-- The domain of the user. -/
  userDomain : Text := "CODEMATE"
  /-- The name of the user. -/
  userName : Text := "Administrator"
  /-- The directory where a session starts. -/
  home : Text := "C:\\Users\\Administrator"
  /-- The drive on which some names are protected. -/
  primaryDrive : Text := "C:"
  /-- The names that cannot be removed on the primary drive. -/
  protectedNames : List Text := ["Windows", "System32", "Program Files", "Users"]
  /-- The serial number of the volume. -/
  volumeSerial : Text := "1A2B-3C4D"
  /-- The number of free bytes on the volume. -/
  freeBytes : Nat := 999999999999
  /-- The name of the operating system. -/
  osName : Text := "Microsoft Windows 11 Pro"
  /-- The version of the operating system. -/
  osVersion : Text := "10.0.22621 N/A Build 22621"
  /-- The physical memory in megabytes. -/
  totalMemory : Nat := 16384
  /-- The greatest number of suggestions that are looked up. -/
  suggestionLimit : Nat := 10
  /-- The greatest number of suggestions that are shown. -/
  suggestionsShown : Nat := 5
  /-- A hint is shown only above this confidence. -/
  hintLow : Floating := .finite false (Nat.pow 2 23) (-24)
  /-- A hint is shown only below this confidence. -/
  hintHigh : Floating := .one
deriving DecidableEq

/-- Whether a text is a drive: one ASCII letter and a colon. -/
def isDrive : Text → Bool
  | [letter, ':'] => letter.isAlpha
  | _ => false

namespace Config

/-- Whether a threshold lies between zero and one. -/
def isThreshold (x : Floating) : Bool := Floating.zero.le x && x.le .one

/-- The thresholds are in order: zero, low, high, one, and low is not high. -/
def thresholdsInOrder (config : Config) : Bool :=
  isThreshold config.hintLow && isThreshold config.hintHigh && config.hintLow.lt config.hintHigh

/-- Refuses settings that the shell cannot honour. -/
def check (config : Config) : Except Failure Unit :=
  if !isDrive config.primaryDrive then
    .error (.setting ("primary_drive must look like 'C:', got '" ++ config.primaryDrive ++ "'"))
  else if !config.home.contains ':' then
    .error (.setting ("home must be an absolute path, got '" ++ config.home ++ "'"))
  else if !config.thresholdsInOrder then
    .error (.setting ("hint thresholds must satisfy 0 <= low < high <= 1 (low="
      ++ config.hintLow.shortest .single ++ ", high=" ++ config.hintHigh.shortest .single ++ ")"))
  else if config.totalMemory = 0 then .error (.setting "total_memory_mb must be non-zero")
  else .ok ()

/-- The user with the domain in front. -/
def qualifiedUser (config : Config) : Text := Path.child config.userDomain config.userName

/-- Whether an interpretation of this confidence deserves a hint. -/
def wantsHint (config : Config) (confidence : Floating) : Bool :=
  config.hintLow.lt confidence && confidence.lt config.hintHigh

/-! ## Checks by evaluation -/

example : Format.single.ofDecimal false 5 (-1) = ({} : Config).hintLow := by decide +kernel
example : isDrive "d:" = true := by decide
example : isDrive "C:\\" = false := by decide
example : isDrive "é:" = false := by decide
example : ({} : Config).qualifiedUser = "CODEMATE\\Administrator".toList := by decide
example : ({} : Config).wantsHint (Format.single.ofDecimal false 8 (-1)) = true := by
  decide +kernel
example : ({} : Config).wantsHint .one = false := by decide +kernel

end Config

end DriveShell
