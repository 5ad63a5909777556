import DriveShell.Calendar
import DriveShell.Toml.Reader
import DriveShell.Toml.Value

/-!
# Scalars of a document

The leaves of a document: blanks and comments, strings of four kinds, numbers,
truth values, and dates.

A string in double quotes has escapes, and one in single quotes stands as it is.
Tripled quotes allow line breaks, a break right after the opening is dropped, and
a break is one line feed however it was written.  Up to two quotes may stand next
to the closing three.  A backslash at the end of a line joins it to the next
character that is no blank.

An integer has 64 bits and a sign.  A number with a fraction or an exponent is
the nearest of double precision, and one too large for that is refused unless it
is negative.  A date must exist in the calendar.
-/

namespace DriveShell

namespace Toml

open Reader

/-! ## Blanks and line ends -/

/-- Whether a character is a blank inside a line. -/
def isSpace (c : Char) : Bool := c = ' ' || c = '\t'

/-- Whether a character may stand in a comment: no control character but the tab. -/
def isPrintable (c : Char) : Bool :=
  c = '\t' || (' ' ≤ c && c ≤ '~') || 0x80 ≤ c.toNat

/-- Blanks inside a line. -/
def spaces : Reader Unit := discard (span isSpace)

/-- The end of a line: a line feed, or a carriage return and a line feed. -/
def newline : Reader Unit := exactly ['\n'] <|> exactly ['\r', '\n']

/-- A comment, without the end of its line. -/
def comment : Reader Unit := char '#' *> discard (span isPrintable)

/-- The end of a line or of the document. -/
def lineEnd : Reader Unit := newline <|> atEnd

/-- What may follow a statement on its line. -/
def lineRest : Reader Unit := spaces *> discard (perhaps comment) *> lineEnd

/-- Blanks, comments and line ends between the items of an array. -/
def filler : Reader Unit :=
  discard (many (discard (one isSpace) <|> newline <|> (comment *> newline)))

/-! ## Strings -/

/-- The value of some hexadecimal digits. -/
def ofHexadecimal (digits : Text) : Nat :=
  digits.foldl (fun n d => n * 16 +
    (if d.isDigit then d.toNat - '0'.toNat else d.toUpper.toNat - 'A'.toNat + 10)) 0

/-- Whether a character is a hexadecimal digit. -/
def isHexadecimal (c : Char) : Bool :=
  c.isDigit || ('a' ≤ c && c ≤ 'f') || ('A' ≤ c && c ≤ 'F')

/-- The character of a code point given by some hexadecimal digits. -/
def codePoint (count : Nat) : Reader Char := do
  let n := ofHexadecimal (← exactRun isHexadecimal count)
  if n.isValidChar then pure (Char.ofNat n) else failure

/-- An escape and the character it stands for. -/
def escape : Reader Char := do
  char '\\'
  match ← one fun _ => true with
  | 'b' => pure '\x08'
  | 't' => pure '\t'
  | 'n' => pure '\n'
  | 'f' => pure '\x0c'
  | 'r' => pure '\r'
  | '"' => pure '"'
  | '\\' => pure '\\'
  | 'u' => codePoint 4
  | 'U' => codePoint 8
  | _ => failure

/-- A string in double quotes. -/
def basicString : Reader Text := do
  char '"'
  let letters ← many (one (fun c => isPrintable c && c ≠ '"' && c ≠ '\\') <|> escape)
  char '"'
  return letters

/-- A string in single quotes. -/
def literalString : Reader Text := do
  char '\x27'
  let letters ← span fun c => isPrintable c && c ≠ '\x27'
  char '\x27'
  return letters

/-- A line break joined away: a backslash, blanks, and all blanks and breaks after them. -/
def joinedLines : Reader Unit :=
  char '\\' *> spaces *> newline *> discard (many (discard (one isSpace) <|> newline))

/-- One or two quotes inside a string with tripled quotes. -/
def innerQuotes (quote : Char) : Reader Text :=
  (exactly [quote, quote] *> notNext (· = quote) *> pure [quote, quote]) <|>
    (exactly [quote] *> notNext (· = quote) *> pure [quote])

/-- The closing of a string with tripled quotes, with the quotes right before it. -/
def closingQuotes (quote : Char) : Reader Text :=
  (exactly (List.replicate 5 quote) *> pure [quote, quote]) <|>
    (exactly (List.replicate 4 quote) *> pure [quote]) <|>
    (exactly (List.replicate 3 quote) *> pure [])

/-- A string between tripled quotes, from its pieces besides quotes. -/
def tripled (quote : Char) (piece : Reader Text) : Reader Text := do
  exactly (List.replicate 3 quote)
  discard (perhaps newline)
  let pieces ← many (piece <|> innerQuotes quote)
  let last ← closingQuotes quote
  return pieces.flatten ++ last

/-- A run of at least one character that passes a test. -/
def someRun (test : Char → Bool) : Reader Text := such (span test) (· ≠ [])

/-- A string between tripled double quotes. -/
def longBasicString : Reader Text :=
  tripled '"' ((someRun fun c => isPrintable c && c ≠ '"' && c ≠ '\\') <|>
    (newline *> pure ['\n']) <|> (joinedLines *> pure []) <|> ((fun c => [c]) <$> escape))

/-- A string between tripled single quotes. -/
def longLiteralString : Reader Text :=
  tripled '\x27' ((someRun fun c => isPrintable c && c ≠ '\x27') <|> (newline *> pure ['\n']))

/-- A string of any kind. -/
def string : Reader Text :=
  longBasicString <|> basicString <|> longLiteralString <|> literalString

/-! ## Numbers -/

/-- Digits, the first of which passes its own test, with single underscores between them. -/
def digitsFrom (first digit : Char → Bool) : Reader Text := do
  let c ← one first
  let rest ← many (one digit <|> (char '_' *> one digit))
  return c :: rest

/-- Decimal digits with single underscores between them. -/
def decimalDigits : Reader Text := digitsFrom Char.isDigit Char.isDigit

/-- Whether a sign is a minus, if there is one. -/
def sign : Reader Bool := (char '-' *> pure true) <|> (char '+' *> pure false) <|> pure false

/-- The digits of an integer: none but a lone zero begin with zero. -/
def wholeDigits : Reader Text :=
  digitsFrom (fun c => c.isDigit && c ≠ '0') Char.isDigit <|> ((fun c => [c]) <$> one (· = '0'))

/-- The value of some decimal digits. -/
def ofDecimal (digits : Text) : Nat := digits.foldl (fun n d => n * 10 + (d.toNat - '0'.toNat)) 0

/-- The value of some digits of another base, behind its mark. -/
def marked (mark : Char) (base : Nat) (digit : Char → Bool) : Reader Int := do
  exactly ['0', mark]
  let digits ← digitsFrom digit digit
  return digits.foldl (fun n d => n * base + ofHexadecimal [d]) 0

/-- An integer of 64 bits. -/
def integer : Reader Int :=
  such (marked 'x' 16 isHexadecimal <|> marked 'o' 8 (fun c => '0' ≤ c && c ≤ '7') <|>
      marked 'b' 2 (fun c => c = '0' || c = '1') <|> decimal)
    fun n => Int64.minValue.toInt ≤ n && n ≤ Int64.maxValue.toInt
where
  /-- A decimal integer with its sign. -/
  decimal : Reader Int := do
    let negative ← sign
    let n := ofDecimal (← wholeDigits)
    return if negative then -n else n

/-- The fraction of a number. -/
def fraction : Reader Text := char '.' *> decimalDigits

/-- The exponent of a number. -/
def exponent : Reader Int := do
  discard (one fun c => c = 'e' || c = 'E')
  let negative ← sign
  let n := ofDecimal (← decimalDigits)
  return if negative then -n else n

/-- A number with a fraction, an exponent, or both. -/
def decimalFloat : Reader Floating := do
  let negative ← sign
  let whole ← wholeDigits
  let (places, power) ←
    (do return (← fraction, (← perhaps exponent).getD 0)) <|> (do return ([], ← exponent))
  let x := Format.double.ofDecimal negative (ofDecimal (whole ++ places)) (power - places.length)
  if x = .infinite false then failure else return x

/-- A word for an infinite number or for none. -/
def namedFloat : Reader Floating := do
  let negative ← sign
  (exactly "inf" *> pure (.infinite negative)) <|> (exactly "nan" *> pure .nan)

/-! ## Dates -/

/-- A number of a fixed count of digits in a range. -/
def field (count least greatest : Nat) : Reader Nat :=
  such (ofDecimal <$> exactRun Char.isDigit count) fun n => least ≤ n && n ≤ greatest

/-- A date of the calendar. -/
def date : Reader Unit := do
  let year ← field 4 0 9999
  char '-'
  let month ← field 2 1 12
  char '-'
  discard (field 2 1 ((Calendar.monthLengths year).getD (month - 1) 0))

/-- A time of day, possibly with a fraction of a second. -/
def time : Reader Unit := do
  discard (field 2 0 23)
  char ':'
  discard (field 2 0 59)
  char ':'
  discard (field 2 0 60)
  discard (perhaps (char '.' *> someRun Char.isDigit))

/-- How far a time is from universal time. -/
def offset : Reader Unit :=
  discard (one fun c => c = 'Z' || c = 'z') <|>
    (do
      discard (one fun c => c = '+' || c = '-')
      discard (field 2 0 23)
      char ':'
      discard (field 2 0 59))

/-- A date, a time, or both. -/
def moment : Reader Unit :=
  (do
    date
    discard (perhaps (do
      discard (one fun c => c = 'T' || c = 't' || c = ' ')
      time
      discard (perhaps offset)))) <|> time

/-! ## Scalars -/

/-- A value without further values in it. -/
def scalar : Reader Value :=
  (.string <$> string) <|> (moment *> pure .moment) <|> (.float <$> decimalFloat) <|>
    (.float <$> namedFloat) <|> (.integer <$> integer) <|>
    (exactly "true" *> pure (.boolean true)) <|> (exactly "false" *> pure (.boolean false))

end Toml

end DriveShell
