import DriveShell.Number.Floating
import DriveShell.Text.Basic

/-!
# Values and tables of a document

A document is a table of values.  A table can be written in four ways, and they
differ in who may add to it later, so each table remembers how it came about.

* A table with a header of its own, or the document itself: only the assignments
  below the header add to it, and it has only one header.
* A table implied by the header of a table below it: it may still get a header.
* A table made by a dotted key: further dotted keys beside the first add to it.
* An inline table: nothing is ever added.

A list of tables grows by one with each header in double brackets, and a path
that leads into it leads into the table that was added last.

Every way of adding gives `none` where it is not allowed, in particular for a
key that is taken.  A date is only known to be one.
-/

namespace DriveShell

namespace Toml

/-- How a table came about. -/
inductive Standing
  /-- By a header. -/
  | header
  /-- By the header of a table below it. -/
  | implied
  /-- By a dotted key. -/
  | dotted
  /-- As a value in braces. -/
  | inline
deriving DecidableEq

/-- A value of a document. -/
inductive Value
  /-- A text. -/
  | string (t : Text)
  /-- An integer. -/
  | integer (n : Int)
  /-- A floating-point number. -/
  | float (x : Floating)
  /-- A truth value. -/
  | boolean (b : Bool)
  /-- A date, a time, or both. -/
  | moment
  /-- A sequence of values. -/
  | array (items : List Value)
  /-- A table. -/
  | table (standing : Standing) (entries : List (Text × Value))
  /-- A list of tables that headers add to, the oldest first. -/
  | tables (elements : List (List (Text × Value)))

/-- Values by key, the oldest first. -/
abbrev Table := List (Text × Value)

namespace Table

/-- The value under a key. -/
def get? (table : Table) (key : Text) : Option Value := List.lookup key table

/-- The table with a value under a key, in the place of the old one if there is one. -/
def put (key : Text) (value : Value) : Table → Table
  | [] => [(key, value)]
  | (k, old) :: rest => if k = key then (k, value) :: rest else (k, old) :: put key value rest

/-! ## Assignments -/

/-- A table with the last of its elements changed. -/
def changeLast (change : Table → Option Table) : List Table → Option (List Table)
  | [] => none
  | [last] => (change last).map ([·])
  | first :: rest => (changeLast change rest).map (first :: ·)

/-- The table with a value under a dotted key.  The last key must be free, and a
table that was reached through dots must have been made by dots. -/
def assign (table : Table) (standing : Standing) (throughDots : Bool) (value : Value) :
    (keys : List Text) → Option Table
  | [] => none
  | [key] =>
    if throughDots ≠ decide (standing = .dotted) ∨ (table.get? key).isSome then none
    else some (table.put key value)
  | key :: below :: keys =>
    match table.get? key with
    | none =>
      (assign [] .dotted true value (below :: keys)).map fun t => table.put key (.table .dotted t)
    | some (.table inner t) =>
      if inner = .dotted ∨ inner = .implied then
        (assign t inner true value (below :: keys)).map fun t => table.put key (.table inner t)
      else none
    | some (.tables elements) =>
      (changeLast (fun t => assign t .header true value (below :: keys)) elements).map fun ts =>
        table.put key (.tables ts)
    | some _ => none

/-! ## Headers -/

/-- The table with a change to the value at the end of a path.  Tables that the
path lacks are implied. -/
def amend (table : Table) (change : Option Value → Option Value) :
    (path : List Text) → Option Table
  | [] => none
  | [key] => (change (table.get? key)).map fun value => table.put key value
  | key :: below :: path =>
    match table.get? key with
    | none => (amend [] change (below :: path)).map fun t => table.put key (.table .implied t)
    | some (.table inner t) =>
      if inner = .inline then none
      else (amend t change (below :: path)).map fun t => table.put key (.table inner t)
    | some (.tables elements) =>
      (changeLast (fun t => amend t change (below :: path)) elements).map fun ts =>
        table.put key (.tables ts)
    | some _ => none

/-- The table with a header for a table at the end of a path. -/
def openTable (table : Table) (path : List Text) : Option Table :=
  table.amend (fun
    | none => some (.table .header [])
    | some (.table .implied t) => some (.table .header t)
    | some _ => none) path

/-- The table with a header for one more element at the end of a path. -/
def openElement (table : Table) (path : List Text) : Option Table :=
  table.amend (fun
    | none => some (.tables [[]])
    | some (.tables elements) => some (.tables (elements ++ [[]]))
    | some _ => none) path

/-- The table with an assignment below the header that was opened last. -/
def assignUnder (table : Table) (header keys : List Text) (value : Value) : Option Table :=
  match header with
  | [] => table.assign .header false value keys
  | path =>
    table.amend (fun
      | some (.table standing t) =>
        (assign t standing false value keys).map (.table standing)
      | some (.tables elements) =>
        (changeLast (fun t => assign t .header false value keys) elements).map .tables
      | _ => none) path

end Table

end Toml

end DriveShell
