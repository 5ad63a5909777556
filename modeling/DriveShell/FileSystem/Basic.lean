import DriveShell.Config.Basic
import DriveShell.Tree.Drawing
import DriveShell.Tree.Listing

/-!
# The file system

A file system is a forest of drives, a directory whose children are the drives,
and the path of the directory the session is in.  Queries and changes take paths
as they were typed and resolve them against that path.

A change either gives the changed file system or refuses with a `Failure`, and
then nothing has changed.  Making, removing and writing work on the children of
the current directory and take a name.  Reading, listing, drawing and entering
take any path.  Writing checks nothing: whatever stood under the name is
replaced.

The current path leads to a directory from the start, and no change touches that
directory's ancestors.  `here` is still a total function, with an empty directory
where the path would lead nowhere.
-/

namespace DriveShell

/-- A forest of drives, the current path, and the figures of the volume. -/
structure FileSystem where
  /-- The directory whose children are the drives. -/
  drives : Directory
  /-- The path of the current directory. -/
  cwd : Text
  /-- The serial number of the volume. -/
  volumeSerial : Text
  /-- The free bytes of the volume. -/
  freeBytes : Nat
  /-- The drive on which some names are protected. -/
  primaryDrive : Text
  /-- The names that cannot be removed on the primary drive. -/
  protectedNames : List Name
deriving DecidableEq

namespace FileSystem

/-! ## Looking up -/

/-- The node at a canonical path. -/
def lookup (fs : FileSystem) (path : Text) : Option Node := fs.drives.find? (Path.segments path)

/-- The drive of the current path. -/
def currentDrive (fs : FileSystem) : Text := Path.drive fs.cwd

/-- The path that an input names before it is made canonical: as it stands if it
holds a colon, from the directory above for `..` and what begins with `..\`,
from the current drive for a leading backslash, and from the current directory
otherwise. -/
def joined (fs : FileSystem) (input : Text) : Text :=
  if input.contains ':' then input
  else if input = Path.above then Path.parent fs.cwd
  else match Text.dropBeginning? (Path.above ++ [Path.delimiter]) input with
    | some rest => Path.child (Path.parent fs.cwd) rest
    | none =>
      if input.head? = some Path.delimiter then fs.currentDrive ++ input
      else Path.child fs.cwd input

/-- The canonical path that an input names. -/
def resolve (fs : FileSystem) (input : Text) : Text := Path.canonical (fs.joined input)

/-- The path an optional input names, the current one without an input. -/
def target (fs : FileSystem) (input : Option Text) : Text :=
  match input with
  | some input => fs.resolve input
  | none => fs.cwd

/-- The node that an input names. -/
def find? (fs : FileSystem) (input : Text) : Option Node := fs.lookup (fs.resolve input)

/-- The current directory, if the current path leads to one. -/
def here? (fs : FileSystem) : Option Directory := (fs.lookup fs.cwd).bind Node.children?

/-- The current directory. -/
def here (fs : FileSystem) : Directory := fs.here?.getD .empty

/-- Whether a child of the current directory may not be removed. -/
def isProtected (fs : FileSystem) (name : Name) : Bool :=
  fs.currentDrive = fs.primaryDrive && fs.protectedNames.contains name

/-! ## Opening -/

/-- The file system over a forest of drives, in the home of the settings. -/
def start (drives : Directory) (config : Config) : Except Failure FileSystem :=
  let home := Path.canonical config.home
  match drives.find? (Path.segments home) with
  | some (.directory _) =>
    .ok {
      drives := drives
      cwd := home
      volumeSerial := config.volumeSerial
      freeBytes := config.freeBytes
      primaryDrive := config.primaryDrive
      protectedNames := config.protectedNames }
  | some (.file _) => .error (.notADirectory home)
  | none => .error (.pathNotFound home)

/-! ## Queries -/

/-- The content of the file that an input names. -/
def read (fs : FileSystem) (input : Text) : Except Failure Text :=
  match fs.find? input with
  | some (.file content) => .ok content
  | some (.directory _) => .error (.accessDenied input)
  | none => .error (.fileNotFound input)

/-- The listing of the directory that an input names. -/
def list (fs : FileSystem) (input : Option Text) : Except Failure Listing :=
  let path := fs.target input
  match fs.lookup path with
  | some (.directory children) =>
    .ok (.ofDirectory path children fs.volumeSerial fs.freeBytes)
  | some (.file _) => .error (.notAListing path)
  | none => .error (.listingNotFound path)

/-- The drawing of the directory that an input names. -/
def draw (fs : FileSystem) (input : Option Text) : Except Failure Text :=
  let path := fs.target input
  match fs.lookup path with
  | some (.directory children) => .ok children.drawing
  | some (.file _) => .error (.notADirectory path)
  | none => .error (.pathNotFound path)

/-! ## Changes -/

/-- The file system with the current directory changed. -/
def updateHere (fs : FileSystem) (change : Directory → Directory) : FileSystem :=
  { fs with drives := fs.drives.updateAt change (Path.segments fs.cwd) }

/-- Enters the directory that an input names. -/
def enter (fs : FileSystem) (input : Text) : Except Failure FileSystem :=
  let path := fs.resolve input
  match fs.lookup path with
  | some (.directory _) => .ok { fs with cwd := path }
  | some (.file _) => .error (.notADirectory path)
  | none => .error (.pathNotFound path)

/-- Makes an empty directory in the current one. -/
def makeDirectory (fs : FileSystem) (name : Name) : Except Failure FileSystem :=
  if !Path.isValidName name then .error (.invalidName name)
  else if fs.here.contains name then .error (.alreadyExists name)
  else .ok (fs.updateHere (·.insert name (.directory .empty)))

/-- Removes a child of the current directory.  A protected name stays whatever is
asked for, and a populated directory goes only as a whole. -/
def remove (fs : FileSystem) (name : Name) (recursive : Bool) : Except Failure FileSystem :=
  match fs.here.get? name with
  | none => .error (.couldNotFind (Path.child fs.cwd name))
  | some node =>
    if fs.isProtected name then .error (.accessDenied name)
    else if (node.children?.any (!·.isEmpty)) && !recursive then .error (.notEmpty name)
    else .ok (fs.updateHere (·.erase name))

/-- Writes a file in the current directory over whatever stands there. -/
def writeFile (fs : FileSystem) (name : Name) (content : Text) : FileSystem :=
  fs.updateHere (·.insert name (.file content))

/-- Writes the content of the file that an input names into the current directory. -/
def copyFile (fs : FileSystem) (source : Text) (destination : Name) :
    Except Failure FileSystem :=
  (fs.read source).map (fs.writeFile destination)

end FileSystem

end DriveShell
