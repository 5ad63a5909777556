import DriveShell.Tree.Directory

/-!
# The reference forest

Every session starts over the same two drives: `C:` with the system, the users
and a sample project, and `D:` with data.
-/

namespace DriveShell

namespace Reference

/-- A directory of some entries. -/
def folder (entries : List (Name × Node)) : Node := .directory (.ofList entries)

/-- The sample project. -/
def hackathon : Node :=
  folder [
    ("README.md", .file
      "# CodeMate Hackathon Project\n\nThis is a Windows-style terminal project."),
    ("app.py", .file "from flask import Flask\napp = Flask(__name__)"),
    ("requirements.txt", .file "Flask==2.0.1\npsutil==5.8.0")]

/-- The profile of the user that a session starts with. -/
def administrator : Node :=
  folder [
    ("Desktop", folder []),
    ("Documents", folder [
      ("projects", folder [("hackathon", hackathon)]),
      ("report.txt", .file "Quarterly report data...")]),
    ("Downloads", folder []),
    ("Pictures", folder []),
    ("Music", folder []),
    ("Videos", folder [])]

/-- The profiles. -/
def users : Node :=
  folder [
    ("Administrator", administrator),
    ("Public", folder [("Documents", folder []), ("Desktop", folder [])])]

/-- The system. -/
def windows : Node :=
  folder [
    ("System32", folder [("drivers", folder [])]),
    ("Temp", folder [])]

/-- The installed programs. -/
def programFiles : Node :=
  folder [
    ("CodeMate", folder [("bin", folder []), ("config", folder [])]),
    ("Python", folder [("Scripts", folder []), ("Lib", folder [])]),
    ("Microsoft Office", folder [])]

/-- The drive with the system. -/
def systemDrive : Node :=
  folder [
    ("Users", users),
    ("Windows", windows),
    ("Program Files", programFiles),
    ("ProgramData", folder [])]

/-- The drive with data. -/
def dataDrive : Node :=
  folder [
    ("Backup", folder [("2024", folder [])]),
    ("Games", folder [("Steam", folder [])]),
    ("Data", folder [])]

/-- The forest of both drives. -/
def drives : Directory := .ofList [("C:", systemDrive), ("D:", dataDrive)]

/-! ## Checks by evaluation -/

example : drives.names = (["C:", "D:"] : List Text) := by decide
example : drives.find? ["C:", "Users", "Administrator", "Documents", "report.txt"] =
    some (.file "Quarterly report data...") := by decide +kernel

end Reference

end DriveShell
