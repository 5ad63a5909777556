import DriveShell.Tree.Directory

/-!
# Drawings

A drawing shows a directory as a connected tree, one line per node below it.
A line is the rails of the directories above, a branch, and the name, with a
slash after the name of a directory.  The last entry of a directory has a
branch of its own, and below it the rails go blank.

Lines come in pre-order: a directory, then what is below it, then its siblings.
-/

namespace DriveShell

namespace Drawing

/-- The branch of an entry. -/
def branch (last : Bool) : Text := if last then "└── " else "├── "

/-- The rail below an entry. -/
def rail (last : Bool) : Text := if last then "    " else "│   "

/-- The lines of a directory below some rails. -/
def linesBelow (rails : Text) : Directory → List Text
  | .empty => []
  | .entry name (.file _) rest =>
    (rails ++ branch rest.isEmpty ++ name) :: linesBelow rails rest
  | .entry name (.directory children) rest =>
    (rails ++ branch rest.isEmpty ++ name ++ ['/']) ::
      (linesBelow (rails ++ rail rest.isEmpty) children ++ linesBelow rails rest)

end Drawing

namespace Directory

/-- The lines of the drawing of a directory. -/
def drawingLines (d : Directory) : List Text := Drawing.linesBelow [] d

/-- The drawing of a directory.  Each line ends, the last one too. -/
def drawing (d : Directory) : Text := d.drawingLines.flatMap (· ++ ['\n'])

/-! ## Checks by evaluation -/

example : drawing .empty = [] := by decide
example : drawing (ofList [("a", .directory (ofList [("b", .file "")])), ("c", .file "")]) =
    "├── a/\n│   └── b\n└── c\n".toList := by decide
example : drawing (ofList [("only", .directory (ofList [("leaf", .file "")]))]) =
    "└── only/\n    └── leaf\n".toList := by decide

end Directory

end DriveShell
