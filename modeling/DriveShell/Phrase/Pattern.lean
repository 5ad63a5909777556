import DriveShell.Text.Blank

/-!
# Patterns of phrases

A pattern describes a stretch of text: letters in any case, gaps of blanks,
captured stretches of one line, one pattern after another, or either of two.

A pattern can match at a place in several ways, and they are ranked.  A gap and a
capture rather take more than less, and `either` rather takes its first choice.
Of all matches in a text the one at the earliest place counts, and at that place
the one of highest rank.

Trying the ways one by one can take time cubic in the text.  A *table* avoids
that.  It has one cell for each suffix of the text, the text itself first and the
empty suffix last, and a cell holds what the rest of a pattern captures there.
`Pattern.table` turns the table of what follows a pattern into the table of the
pattern with what follows it.  Each constructor is one pass from the right end
of the text, so a match costs the length of the text times the size of the
pattern.

A captured stretch is kept as the suffixes at its two ends, so that passing it on
copies nothing.
-/

namespace DriveShell

/-- A description of stretches of text. -/
inductive Pattern
  /-- The empty stretch. -/
  | nothing
  /-- One letter in any case.  The letter is given small. -/
  | letter (c : Char)
  /-- One or more blanks. -/
  | gap
  /-- One or more characters of a line, captured. -/
  | capture
  /-- One pattern and then another. -/
  | next (first second : Pattern)
  /-- One pattern or, failing it, another. -/
  | either (preferred other : Pattern)
deriving DecidableEq

/-! ## Captured stretches -/

/-- A stretch of text between two of its suffixes. -/
structure Stretch where
  /-- The suffix that begins where the stretch begins. -/
  start : Text
  /-- The suffix that begins where the stretch ends. -/
  stop : Text
deriving DecidableEq

/-- The text of a stretch. -/
def Stretch.text (s : Stretch) : Text := s.start.take (s.start.length - s.stop.length)

/-- The stretches that a match captures, in order. -/
abbrev Captures := List Stretch

/-- What is captured at each suffix of a text, or nothing where nothing matches. -/
abbrev MatchTable := List (Option Captures)

namespace MatchTable

/-- What is captured at the longest suffix. -/
def first (table : MatchTable) : Option Captures := table.head?.join

/-- The suffixes of a text, the longest first. -/
def suffixes : Text → List Text
  | [] => [[]]
  | c :: rest => (c :: rest) :: suffixes rest

/-- The table of a pattern that matches everywhere and takes nothing. -/
def everywhere (t : Text) : MatchTable := (suffixes t).map fun _ => some []

end MatchTable

namespace Pattern

/-! ## One pass per constructor -/

/-- Whether a character is a small letter in some case.  The Kelvin sign is a
capital `k`, and the long s is a small `s`. -/
def isLetter (c d : Char) : Bool :=
  d.toLower = c || (c = 'k' && d = '\u212A') || (c = 's' && d = '\u017F')

/-- The table of a letter with what follows it. -/
def letterTable (c : Char) : Text → MatchTable → MatchTable
  | [], _ => [none]
  | d :: rest, after =>
    (if isLetter c d then MatchTable.first after.tail else none) :: letterTable c rest after.tail

/-- The table of a gap with what follows it.  A longer gap is preferred. -/
def gapTable : Text → MatchTable → MatchTable
  | [], _ => [none]
  | c :: rest, after =>
    let later := gapTable rest after.tail
    (if Text.isBlank c then MatchTable.first later <|> MatchTable.first after.tail else none)
      :: later

/-- Where a captured stretch that has begun would end, with what follows it.  A
longer stretch is preferred. -/
def endTable : Text → MatchTable → List (Option (Text × Captures))
  | [], _ => [none]
  | c :: rest, after =>
    let later := endTable rest after.tail
    (if c = '\n' then none
      else later.head?.join <|> (MatchTable.first after.tail).map (rest, ·)) :: later

/-- The table of a capture with what follows it. -/
def captureTable (t : Text) (after : MatchTable) : MatchTable :=
  List.zipWith (fun start found => found.map fun (stop, captures) => ⟨start, stop⟩ :: captures)
    (MatchTable.suffixes t) (endTable t after)

/-- The table of a pattern with what follows it. -/
def table (t : Text) : Pattern → MatchTable → MatchTable
  | .nothing, after => after
  | .letter c, after => letterTable c t after
  | .gap, after => gapTable t after
  | .capture, after => captureTable t after
  | .next first second, after => first.table t (second.table t after)
  | .either preferred other, after =>
    List.zipWith (· <|> ·) (preferred.table t after) (other.table t after)

/-- What the pattern captures at the earliest place where it matches. -/
def search? (p : Pattern) (t : Text) : Option Captures :=
  (p.table t (MatchTable.everywhere t)).findSome? id

/-! ## Building patterns -/

/-- Some patterns one after another. -/
def inOrder (patterns : List Pattern) : Pattern := patterns.foldr .next .nothing

/-- The letters of a word. -/
def word (letters : Text) : Pattern := inOrder (letters.map .letter)

/-- A pattern or, failing it, the empty stretch. -/
def perhaps (p : Pattern) : Pattern := .either p .nothing

/-- A word, or rather its plural. -/
def plural (letters : Text) : Pattern := .next (word letters) (perhaps (.letter 's'))

/-- The first pattern that fits of a list that is not empty. -/
def oneOf (preferred : Pattern) (others : List Pattern) : Pattern :=
  match others with
  | [] => preferred
  | other :: others => .either preferred (oneOf other others)

/-- The first word that fits of a list that is not empty. -/
def anyWord (preferred : Text) (others : List Text) : Pattern :=
  oneOf (word preferred) (others.map word)

/-- Words with gaps between them. -/
def phrase (first : Text) (others : List Text) : Pattern :=
  inOrder (word first :: others.flatMap fun w => [.gap, word w])

/-! ## Checks by evaluation -/

example : (word "show").search? "please SHOW it" = some [] := by decide
example : (word "kiss").search? "\u212Ai\u017FS" = some [] := by decide
example : ((inOrder [word "a", .gap, .capture]).search? "x A  b c\nd").map (·.map Stretch.text) =
    some ["b c".toList] := by decide
example :
    ((inOrder [.capture, .gap, word "to", .gap, .capture]).search? "a to b to c").map
      (·.map Stretch.text) = some ["a to b".toList, "c".toList] := by decide

end Pattern

end DriveShell
