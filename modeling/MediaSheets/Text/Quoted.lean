import MediaSheets.Text.Unprintable
import MediaSheets.Text.Extending

/-!
# Quoted text

Text between double quotes with everything a reader could not see spelled out: the way a message
shows a text that was found where it should not be.
-/

namespace MediaSheets.Text

/-- The code point of a character in lowercase hexadecimal, without leading zeros. -/
def hexCodePoint (c : Char) : String := String.ofList (Nat.toDigits 16 c.toNat)

/-- A character as it stands inside quoted text. -/
def quotedChar (c : Char) : String :=
  if c = '\x00' then "\\0"
  else if c = '\t' then "\\t"
  else if c = '\r' then "\\r"
  else if c = '\n' then "\\n"
  else if c = '\\' then "\\\\"
  else if c = '"' then "\\\""
  else if isExtending c || isUnprintable c then "\\u\x7b" ++ hexCodePoint c ++ "\x7d"
  else c.toString

/-- A text between double quotes. -/
def quoted (s : String) : String := "\"" ++ String.join (s.toList.map quotedChar) ++ "\""

end MediaSheets.Text
