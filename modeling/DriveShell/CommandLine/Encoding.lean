import DriveShell.Number.Decimal
import DriveShell.Phrase.Interpretation

/-!
# Interpretations as JSON

`--explain` prints an interpretation as a JSON object, one field a line.  In a
string the quote, the backslash and the control characters are escaped, and all
other characters stand for themselves.
-/

namespace DriveShell

namespace Json

/-- The hexadecimal digits of a number below 256, always two. -/
def twoDigits (n : Nat) : Text := List.leftpad 2 '0' (Nat.toDigits 16 n)

/-- A character as it stands in a JSON string. -/
def escaped (c : Char) : Text :=
  if c = '"' then ['\\', '"']
  else if c = '\\' then ['\\', '\\']
  else if c = '\x08' then ['\\', 'b']
  else if c = '\x0c' then ['\\', 'f']
  else if c = '\n' then ['\\', 'n']
  else if c = '\r' then ['\\', 'r']
  else if c = '\t' then ['\\', 't']
  else if c.toNat < 32 then "\\u00" ++ twoDigits c.toNat
  else [c]

/-- A JSON string. -/
def quoted (t : Text) : Text := '"' :: t.flatMap escaped ++ ['"']

/-- A JSON number.  An integer keeps one decimal. -/
def number (x : Floating) : Text :=
  let digits := x.shortest .single
  if digits.contains '.' then digits else digits ++ ".0"

/-- A line for a field. -/
def field (name : Text) (value : Text) : Text := "  " ++ quoted name ++ ": " ++ value

end Json

/-- An interpretation as a JSON object, one field a line. -/
def Interpretation.encoded (i : Interpretation) : Text :=
  "\x7b\n" ++ Text.join [',', '\n']
    [Json.field "command" (Json.quoted i.command),
      Json.field "confidence" (Json.number i.confidence),
      Json.field "explanation" (Json.quoted i.explanation)] ++ "\n\x7d"

namespace Json

/-! ## Checks by evaluation -/

example : quoted "é\n\"\x01" = "\"é\\n\\\"\\u0001\"".toList := by decide
example : number .one = "1.0".toList := by decide +kernel

end Json

end DriveShell
