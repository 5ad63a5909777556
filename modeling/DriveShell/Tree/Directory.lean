import DriveShell.Text.Basic

/-!
# Directories

A node of the tree is a file with its content or a directory.  A directory is a
sequence of named nodes.  It is used as a dictionary that remembers the order of
insertion: a new name goes to the end, a name that is taken keeps its place when
its node is replaced, and removing a name keeps the order of the others.  Names
are compared exactly, letter case included.

The two types are mutual, so an operation on the names of one directory is a
recursion along `Directory.entry`, and an operation on a whole tree recurses into
the nodes as well.  `Directory.toList` is the sequence of pairs, and what each
operation does is read off it.

`find?` and `updateAt` follow a list of names downwards.  They agree on the way:
both stop where a name is missing or a file stands in between.
-/

namespace DriveShell

/-- A name of a node in its directory. -/
abbrev Name := Text

mutual

/-- A file with its content, or a directory of named nodes. -/
inductive Node
  /-- A file. -/
  | file (content : Text)
  /-- A directory. -/
  | directory (children : Directory)
deriving DecidableEq, Inhabited

/-- A sequence of named nodes, oldest first. -/
inductive Directory
  /-- No entries. -/
  | empty
  /-- One entry and the entries after it. -/
  | entry (name : Name) (node : Node) (rest : Directory)
deriving DecidableEq, Inhabited

end

/-! ## Nodes -/

namespace Node

/-- Whether a node is a directory. -/
def isDirectory : Node → Bool
  | .file _ => false
  | .directory _ => true

/-- The entries of a directory, and none for a file. -/
def children? : Node → Option Directory
  | .file _ => none
  | .directory children => some children

/-- The number of bytes of a file's content, and zero for a directory. -/
def size : Node → Nat
  | .file content => content.byteSize
  | .directory _ => 0

end Node

namespace Directory

/-- Induction along the entries of one directory, not into their nodes. -/
@[elab_as_elim, induction_eliminator]
theorem spine {motive : Directory → Prop} (empty : motive .empty)
    (entry : ∀ name node rest, motive rest → motive (.entry name node rest)) :
    ∀ d, motive d
  | .empty => empty
  | .entry name node rest => entry name node rest (spine empty entry rest)

/-- Induction over a tree: along the entries of a directory, and into those that are
directories. -/
@[elab_as_elim]
theorem nested {motive : Directory → Prop} (empty : motive .empty)
    (entry : ∀ name node rest, (∀ children, node.children? = some children → motive children) →
      motive rest → motive (.entry name node rest)) : ∀ d, motive d
  | .empty => empty
  | .entry name (.file content) rest =>
    entry name (.file content) rest nofun (nested empty entry rest)
  | .entry name (.directory children) rest =>
    entry name (.directory children) rest
      (fun _ hchildren => Option.some.inj hchildren ▸ nested empty entry children)
      (nested empty entry rest)

/-! ## The sequence of entries -/

/-- The entries in order. -/
def toList : Directory → List (Name × Node)
  | .empty => []
  | .entry name node rest => (name, node) :: rest.toList

@[simp] theorem toList_empty : toList .empty = [] := rfl

@[simp] theorem toList_entry (name : Name) (node : Node) (rest : Directory) :
    (entry name node rest).toList = (name, node) :: rest.toList := rfl

/-- The names in order. -/
def names (d : Directory) : List Name := d.toList.map Prod.fst

/-- The number of entries. -/
def size (d : Directory) : Nat := d.toList.length

/-- Whether a directory has no entries. -/
def isEmpty : Directory → Bool
  | .empty => true
  | .entry .. => false

/-! ## The dictionary -/

/-- The node under a name. -/
def get? (d : Directory) (name : Name) : Option Node :=
  match d with
  | .empty => none
  | .entry n node rest => if n = name then some node else rest.get? name

/-- Whether a name is taken. -/
def contains (d : Directory) (name : Name) : Bool := (d.get? name).isSome

/-- The node that was under a name, and the directory with another one there.
A new name goes to the end. -/
def exchange (d : Directory) (name : Name) (node : Node) : Option Node × Directory :=
  match d with
  | .empty => (none, .entry name node .empty)
  | .entry n old rest =>
    if n = name then (some old, .entry n node rest)
    else
      let (replaced, rest) := rest.exchange name node
      (replaced, .entry n old rest)

/-- The directory with a node under a name. -/
def insert (d : Directory) (name : Name) (node : Node) : Directory := (d.exchange name node).2

/-- The node that was under a name, and the directory without it. -/
def extract (d : Directory) (name : Name) : Option Node × Directory :=
  match d with
  | .empty => (none, .empty)
  | .entry n node rest =>
    if n = name then (some node, rest)
    else
      let (removed, rest) := rest.extract name
      (removed, .entry n node rest)

/-- The directory without a name. -/
def erase (d : Directory) (name : Name) : Directory := (d.extract name).2

/-- The directory with another node under a name that is taken. -/
def replace? (d : Directory) (name : Name) (node : Node) : Option Directory :=
  match d with
  | .empty => none
  | .entry n old rest =>
    if n = name then some (.entry n node rest)
    else (rest.replace? name node).map (.entry n old)

/-- The directory that some entries give when they are inserted in order. -/
def ofList (entries : List (Name × Node)) : Directory :=
  entries.foldl (fun d (name, node) => d.insert name node) .empty

/-! ## Walking down -/

/-- The node that a list of names leads to.  No names lead nowhere. -/
def find? (d : Directory) : List Name → Option Node
  | [] => none
  | [name] => d.get? name
  | name :: below :: names =>
    match d.get? name with
    | some (.directory children) => children.find? (below :: names)
    | _ => none

/-- The tree in which the directory that a list of names leads to is changed.
It is the same tree where the names lead to no directory. -/
def updateAt (d : Directory) (change : Directory → Directory) : List Name → Directory
  | [] => change d
  | name :: names =>
    match d.get? name with
    | some (.directory children) => d.insert name (.directory (children.updateAt change names))
    | _ => d

/-! ## Checks by evaluation -/

/-- Two entries for the checks below. -/
private def pair : Directory := ofList [("a", .file "1"), ("b", .directory .empty)]

example : pair.names = (["a", "b"] : List Text) := by decide
example : (pair.insert "a" (.file "2")).names = (["a", "b"] : List Text) := by decide
example : ((pair.erase "a").insert "a" (.file "2")).names = (["b", "a"] : List Text) := by decide
example : (pair.updateAt (·.insert "c" (.file "x")) ["b"]).find? ["b", "c"] =
    some (.file "x") := by decide
example : pair.updateAt (fun _ => .empty) ["a"] = pair := by decide

end Directory

end DriveShell
