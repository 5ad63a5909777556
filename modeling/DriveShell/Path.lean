import DriveShell.Text.Basic

/-!
# Paths

A path is a text of segments separated by backslashes.  It is canonical when its
first segment names a drive, that is, contains a colon, and no further segment
is empty, `.` or `..`.

`canonical` brings any path into that form as far as it can.  A canonical path
stays as it is.  Otherwise the segments are pushed on a stack: an empty one and
`.` are dropped, and `..` takes the last one off unless it is the only one.  So
the bottom of the stack, which names the drive, is never taken off.

`parent`, `drive` and `segments` read a path as it stands.  `parent` cuts at the
last backslash, and a path without one is its own parent.
-/

namespace DriveShell

namespace Path

/-- The character between two segments. -/
def delimiter : Char := '\\'

/-- The segment for the directory above. -/
def above : Text := ['.', '.']

/-- The segment for the directory itself. -/
def here : Text := ['.']

/-- The path of some segments. -/
def ofSegments (segments : List Text) : Text := Text.join [delimiter] segments

/-- A path followed by one more piece. -/
def child (path piece : Text) : Text := path ++ delimiter :: piece

/-! ## The canonical form -/

/-- Whether a segment stands for a step down. -/
def isProper (segment : Text) : Bool := segment ≠ [] && segment ≠ here && segment ≠ above

/-- Whether a path is canonical. -/
def isCanonical (path : Text) : Bool :=
  match Text.split delimiter path with
  | [] => false
  | drive :: rest => drive.contains ':' && rest.all isProper

/-- The stack after one more segment.  The top of the stack is the head of the list. -/
def push (stack : List Text) (segment : Text) : List Text :=
  if segment = [] ∨ segment = here then stack
  else if segment = above then if 1 < stack.length then stack.tail else stack
  else segment :: stack

/-- The segments that are left when `.` and `..` are worked off. -/
def settle (segments : List Text) : List Text := (segments.foldl push []).reverse

/-- The canonical form of a path. -/
def canonical (path : Text) : Text :=
  if isCanonical path then path else ofSegments (settle (Text.split delimiter path))

/-! ## Reading a path -/

/-- The path up to its last delimiter, or the whole path if there is none. -/
def parent (path : Text) : Text :=
  match path.reverse.dropWhile (· ≠ delimiter) with
  | [] => path
  | _ :: before => before.reverse

/-- The path up to its first delimiter. -/
def drive (path : Text) : Text := path.takeWhile (· ≠ delimiter)

/-- The segments that are not empty. -/
def segments (path : Text) : List Text := (Text.split delimiter path).filter (· ≠ [])

/-- Whether a text holds a backslash, a slash or a colon. -/
def hasReserved (name : Text) : Bool :=
  name.contains delimiter || name.contains '/' || name.contains ':'

/-- Whether a text can be the name of a child: a single segment that stands for
a step down and holds no reserved character. -/
def isValidName (name : Text) : Bool := isProper name && !hasReserved name

/-! ## Checks by evaluation -/

example : canonical "C:\\\\Users\\" = "C:\\Users".toList := by decide
example : canonical "C:\\Users\\.\\Public" = "C:\\Users\\Public".toList := by decide
example : canonical "C:\\Users\\..\\..\\.." = "C:".toList := by decide
example : canonical "..\\x" = "x".toList := by decide
example : canonical "" = [] := by decide
example : parent "C:\\Users\\Public" = "C:\\Users".toList := by decide
example : parent "C:" = "C:".toList := by decide
example : parent "C:\\" = "C:".toList := by decide
example : drive "D:\\Games" = "D:".toList := by decide
example : segments "C:\\\\a\\b\\" = (["C:", "a", "b"] : List Text) := by decide
example : isValidName "a b.txt" = true := by decide
example : isValidName ".." = false := by decide

end Path

end DriveShell
