import DriveShell.Command.Registry

/-!
# Commands about the machine

Eight commands tell what the machine is and how busy it is.  `tasklist`,
`systeminfo` and `mem` measure the load once, `date` and `time` read the clock
once, and the others only use the settings.  None changes the file system.
-/

namespace DriveShell

namespace MachineCommands

/-- The line that names the operating system. -/
def systemBanner : Text := "Microsoft Windows [Version 10.0.22621.2428]"

/-- The lines above the processes. -/
def processHeader : Text :=
  "\nImage Name                     PID Session Name        Session#    Mem Usage\n"
    ++ "========================= ======== ================ =========== ============"

/-- The row of a process. -/
def processRow (process : ProcessEntry) : Text :=
  Text.join [' ']
    [List.rightpad 25 ' ' process.name,
      List.leftpad 8 ' ' (Text.ofNat process.id),
      List.rightpad 16 ' ' "Console".toList,
      List.leftpad 11 ' ' "1".toList,
      List.leftpad 12 ' ' (process.memory.fixed 1 ++ " MB")]

/-- Lists the processes. -/
def tasklist : Command where
  name := "tasklist"
  aliases := ["ps"]
  description := "List all running processes"
  usage := "TASKLIST"
  run _ := do
    let snapshot ← Shell.load
    return .text (processHeader ++ snapshot.processes.flatMap fun p => '\n' :: processRow p)

/-- Describes the machine. -/
def systeminfo : Command where
  name := "systeminfo"
  aliases := ["cpu"]
  description := "Display system information including CPU usage"
  usage := "SYSTEMINFO"
  run _ := do
    let snapshot ← Shell.load
    let config ← Shell.config
    return .text (Text.join ['\n']
      [[],
        "Host Name:                 " ++ config.hostName,
        "OS Name:                   " ++ config.osName,
        "OS Version:                " ++ config.osVersion,
        "Processor(s):              1 Processor(s) Installed.",
        "                          [01]: Intel64 Family 6 Model 142 Stepping 12 "
          ++ "GenuineIntel ~2.80 GHz",
        "Total Physical Memory:     " ++ Text.ofNat snapshot.memory.total ++ " MB",
        "Available Physical Memory: " ++ Text.ofNat snapshot.memory.available ++ " MB",
        "CPU Usage:                 " ++ Text.ofNat snapshot.cpu ++ ['%']])

/-- Describes the memory. -/
def mem : Command where
  name := "mem"
  aliases := ["memory"]
  description := "Display memory usage information"
  usage := "MEM"
  run _ := do
    let memory := (← Shell.load).memory
    return .text (Text.join ['\n']
      [[],
        "Memory Status:",
        "Total Physical Memory:     " ++ Text.grouped memory.total ++ " MB",
        "Used Physical Memory:      " ++ Text.grouped memory.used ++ " MB ("
          ++ memory.usedPercent.fixed 1 ++ "%)",
        "Available Physical Memory: " ++ Text.grouped memory.available ++ " MB"])

/-- Shows the versions. -/
def ver : Command where
  name := "ver"
  aliases := ["version"]
  description := "Display the Windows version"
  usage := "VER"
  run _ := return .text ('\n' :: systemBanner ++ "\nCodeMate Terminal Emulator v0.1.0")

/-- Shows the date. -/
def date : Command where
  name := "date"
  description := "Display current date"
  usage := "DATE"
  run _ := return .text ("The current date is: " ++ (← Shell.clock).dateLine)

/-- Shows the time. -/
def time : Command where
  name := "time"
  description := "Display current time"
  usage := "TIME"
  run _ := return .text ("The current time is: " ++ (← Shell.clock).timeLine)

/-- Shows the user. -/
def whoami : Command where
  name := "whoami"
  description := "Display the current user"
  usage := "WHOAMI"
  run _ := return .text (← Shell.config).qualifiedUser

/-- Shows the name of the machine. -/
def hostname : Command where
  name := "hostname"
  description := "Display the computer name"
  usage := "HOSTNAME"
  run _ := return .text (← Shell.config).hostName

/-- The commands about the machine, in the order of the help. -/
def all : List Command := [tasklist, systeminfo, mem, ver, date, time, whoami, hostname]

end MachineCommands

end DriveShell
