import DriveShell.Toml.Scalar

/-!
# Documents

A document is a sequence of statements, one a line: a header, a header of one
more element of a list, or an assignment.  Reading a document is done in two
steps.  The text is read as statements, which concerns one line at a time, and
the statements make a table, which concerns what may be added to what.

Values nest, and at most `depthLimit` arrays and inline tables may stand in one
another.  Dotted keys have the same limit.  So a value is read by recursion on
how much further it may nest.
-/

namespace DriveShell

namespace Toml

open Reader

/-- How many arrays and inline tables may stand in one another, and how many
keys a dotted key may have. -/
def depthLimit : Nat := 79

/-! ## Keys and values -/

/-- Whether a character may stand in a key without quotes. -/
def isBare (c : Char) : Bool := c.isAlphanum || c = '-' || c = '_'

/-- One part of a dotted key. -/
def simpleKey : Reader Text := basicString <|> literalString <|> someRun isBare

/-- A dotted key. -/
def key : Reader (List Text) :=
  such (separated (char '.') (spaces *> simpleKey <* spaces)) fun keys =>
    keys ≠ [] && keys.length ≤ depthLimit

/-- A key and the value assigned to it. -/
def pair (value : Reader Value) : Reader (List Text × Value) := do
  let keys ← key
  char '='
  spaces
  return (keys, ← value)

/-- An array. -/
def array (value : Reader Value) : Reader Value := do
  char '['
  let items ← separated (char ',') (filler *> value <* filler)
  if !items.isEmpty then discard (perhaps (char ','))
  filler
  char ']'
  return .array items

/-- The table of some assignments, each beside the others. -/
def ofPairs (pairs : List (List Text × Value)) : Option Table :=
  pairs.foldlM (fun (table : Table) (keys, value) => table.assign .header false value keys) []

/-- An inline table. -/
def inlineTable (value : Reader Value) : Reader Value := do
  char '\x7b'
  let pairs ← separated (char ',') (pair value <* spaces)
  spaces
  char '\x7d'
  return .table .inline (← (ofPairs pairs : Option Table))

/-- A value that may nest a number of times. -/
def value : (depth : Nat) → Reader Value
  | 0 => scalar
  | depth + 1 => scalar <|> array (value depth) <|> inlineTable (value depth)

/-! ## Statements -/

/-- A line of a document. -/
inductive Statement
  /-- The header of a table. -/
  | header (path : List Text)
  /-- The header of one more element of a list of tables. -/
  | element (path : List Text)
  /-- An assignment. -/
  | assignment (keys : List Text) (value : Value)

/-- A line with a statement. -/
def statement : Reader Statement :=
  ((.element <$> (exactly ['[', '['] *> key <* exactly [']', ']'])) <|>
    (.header <$> (char '[' *> key <* char ']')) <|>
    (do
      let (keys, value) ← pair (value depthLimit)
      return .assignment keys value)) <* lineRest

/-- A line with a statement or without. -/
def line : Reader (Option Statement) :=
  spaces *> ((newline *> pure none) <|> (comment *> lineEnd *> pure none) <|>
    (some <$> statement))

/-- The statements of a document. -/
def statements : Reader (List Statement) := do
  discard (perhaps (char '\uFEFF'))
  let lines ← many line
  spaces
  atEnd
  return lines.filterMap id

/-! ## The table of a document -/

/-- The table after one more statement, and the path of the header it stands under. -/
def step : Table × List Text → Statement → Option (Table × List Text)
  | (table, _), .header path => (table.openTable path).map (·, path)
  | (table, _), .element path => (table.openElement path).map (·, path)
  | (table, header), .assignment keys value =>
    (table.assignUnder header keys value).map (·, header)

/-- The table that a document holds, if it is one. -/
def Table.ofDocument (document : Text) : Option Table := do
  let (statements, _) ← statements.run document
  let (table, _) ← statements.foldlM step ([], [])
  return table

end Toml

end DriveShell
