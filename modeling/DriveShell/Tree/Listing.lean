import DriveShell.Path
import DriveShell.Text.Grouped
import DriveShell.Tree.Directory

/-!
# Listings

A listing is what a directory looks like at one moment: its path, one entry per
child with its kind and size, and the figures of the volume.  It is printed as
a header, the rows of the directory and of the one above, a row per entry, and
two lines of summary.

A row of a directory holds a tag and the name.  A row of a file holds a stamp,
if the listing has one, then the size in a column of fourteen, a blank and the
name.  A size wider than its column pushes the name to the right.
-/

namespace DriveShell

/-- The kinds of entries in a listing. -/
inductive EntryKind
  /-- A file. -/
  | file
  /-- A directory. -/
  | directory
deriving DecidableEq

/-- One child in a listing. -/
structure ListingEntry where
  /-- Its name. -/
  name : Name
  /-- Its kind. -/
  kind : EntryKind
  /-- The bytes of a file, and zero for a directory. -/
  size : Nat
deriving DecidableEq

/-- What a directory looks like at one moment. -/
structure Listing where
  /-- The path of the directory. -/
  path : Text
  /-- Its children in order. -/
  entries : List ListingEntry
  /-- The serial number of the volume. -/
  volumeSerial : Text
  /-- The free bytes of the volume. -/
  freeBytes : Nat
  /-- The date and time in front of each file. -/
  stamp : Option Text := none
deriving DecidableEq

/-- The kind of a node. -/
def Node.kind : Node → EntryKind
  | .file _ => .file
  | .directory _ => .directory

/-- The entry of a named node. -/
def ListingEntry.ofNode (name : Name) (node : Node) : ListingEntry := ⟨name, node.kind, node.size⟩

namespace Listing

/-- The listing of a directory, without a stamp. -/
def ofDirectory (path : Text) (children : Directory) (volumeSerial : Text) (freeBytes : Nat) :
    Listing where
  path := path
  entries := children.toList.map fun (name, node) => .ofNode name node
  volumeSerial := volumeSerial
  freeBytes := freeBytes

/-- The listing with a stamp in front of each file. -/
def stamped (listing : Listing) (stamp : Text) : Listing := { listing with stamp := some stamp }

/-! ## Figures -/

/-- The number of files. -/
def fileCount (listing : Listing) : Nat := listing.entries.countP (·.kind = .file)

/-- The number of directories, with the directory itself and the one above. -/
def directoryCount (listing : Listing) : Nat := listing.entries.countP (·.kind = .directory) + 2

/-- The bytes of all entries. -/
def totalBytes (listing : Listing) : Nat := (listing.entries.map (·.size)).foldr (· + ·) 0

/-- The drive of the listed path without the colons at its end. -/
def driveLetter (listing : Listing) : Text :=
  Text.dropEndWhile (· = ':') (Path.drive listing.path)

/-! ## Text -/

/-- What stands in front of a directory's name. -/
def directoryTag : Text := "<DIR>          "

/-- What stands in front of a line of the summary. -/
def summaryIndent : Text := "               "

/-- The row of an entry. -/
def row (stamp : Option Text) (entry : ListingEntry) : Text :=
  match entry.kind with
  | .directory => directoryTag ++ entry.name
  | .file =>
    stamp.getD [] ++ List.leftpad 14 ' ' (Text.ofNat entry.size) ++ ' ' :: entry.name

/-- The lines above the entries. -/
def header (listing : Listing) : List Text :=
  [" Volume in drive " ++ listing.driveLetter ++ " has no label.",
    " Volume Serial Number is " ++ listing.volumeSerial,
    [],
    " Directory of " ++ listing.path,
    [],
    directoryTag ++ Path.here,
    directoryTag ++ Path.above]

/-- The lines below the entries. -/
def summary (listing : Listing) : List Text :=
  [[],
    summaryIndent ++ Text.ofNat listing.fileCount ++ " File(s)     " ++
      Text.grouped listing.totalBytes ++ " bytes",
    summaryIndent ++ Text.ofNat listing.directoryCount ++ " Dir(s)  " ++
      Text.grouped listing.freeBytes ++ " bytes free"]

/-- The lines of a listing. -/
def lines (listing : Listing) : List Text :=
  listing.header ++ listing.entries.map (row listing.stamp) ++ listing.summary

/-- The text of a listing. -/
def text (listing : Listing) : Text := Text.join ['\n'] listing.lines

/-! ## Checks by evaluation -/

example : row none ⟨"report.txt", .file, 24⟩ = "            24 report.txt".toList := by decide
example : row (some "10/16/2026  03:04 PM") ⟨"projects", .directory, 0⟩ =
    "<DIR>          projects".toList := by decide
example : (ofDirectory "D::\\Data" .empty "1A2B-3C4D" 0).driveLetter = "D".toList := by decide

end Listing

end DriveShell
