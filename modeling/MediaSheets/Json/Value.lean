/-!
# JSON values and their text

The values that are written out, and the two ways of writing them: on one line without blanks
(`Value.compact`), or one element to a line (`Value.pretty`).
-/

namespace MediaSheets.Json

/-- A JSON value as it is written; the members of an object keep their order. -/
inductive Value
  | null
  | integer (value : Int)
  | text (value : String)
  | list (items : List Value)
  | object (members : List (String × Value))

def hexDigit (n : Nat) : Char := if n < 10 then Char.ofNat (n + 48) else Char.ofNat (n + 87)

/-- A character inside a quoted text: quotes, backslashes and the controls below the space are
escaped, all else stands for itself. -/
def escapedChar (c : Char) : List Char :=
  if c = '"' then ['\\', '"']
  else if c = '\\' then ['\\', '\\']
  else if c = '\x08' then ['\\', 'b']
  else if c = '\t' then ['\\', 't']
  else if c = '\n' then ['\\', 'n']
  else if c = '\x0c' then ['\\', 'f']
  else if c = '\r' then ['\\', 'r']
  else if c < ' ' then ['\\', 'u', '0', '0', hexDigit (c.toNat / 16), hexDigit (c.toNat % 16)]
  else [c]

def quotedText (s : String) : String := "\"" ++ String.ofList (s.toList.flatMap escapedChar) ++ "\""

def decimal : Int → String
  | .ofNat n => n.repr
  | .negSucc n => "-" ++ (n + 1).repr

mutual

/-- A value on one line, without blanks. -/
def Value.compact : Value → String
  | .null => "null"
  | .integer value => decimal value
  | .text value => quotedText value
  | .list items => "[" ++ compactItems items ++ "]"
  | .object members => "\x7b" ++ compactMembers members ++ "\x7d"

def compactItems : List Value → String
  | [] => ""
  | [item] => item.compact
  | item :: items => item.compact ++ "," ++ compactItems items

def compactMembers : List (String × Value) → String
  | [] => ""
  | [(key, value)] => quotedText key ++ ":" ++ value.compact
  | (key, value) :: members =>
    quotedText key ++ ":" ++ value.compact ++ "," ++ compactMembers members

end

/-- The start of a line at some depth. -/
def newLine (depth : Nat) : String := "\n" ++ String.ofList (List.replicate (2 * depth) ' ')

mutual

/-- A value with one element to a line, two blanks to a level; an empty list or object stays on its
line. -/
def Value.prettyAt (depth : Nat) : Value → String
  | .null => "null"
  | .integer value => decimal value
  | .text value => quotedText value
  | .list [] => "[]"
  | .list (item :: items) =>
    "[" ++ newLine (depth + 1) ++ item.prettyAt (depth + 1) ++ prettyItems (depth + 1) items ++
      newLine depth ++ "]"
  | .object [] => "\x7b\x7d"
  | .object ((key, value) :: members) =>
    "\x7b" ++ newLine (depth + 1) ++ quotedText key ++ ": " ++ value.prettyAt (depth + 1) ++
      prettyMembers (depth + 1) members ++ newLine depth ++ "\x7d"

def prettyItems (depth : Nat) : List Value → String
  | [] => ""
  | item :: items => "," ++ newLine depth ++ item.prettyAt depth ++ prettyItems depth items

def prettyMembers (depth : Nat) : List (String × Value) → String
  | [] => ""
  | (key, value) :: members =>
    "," ++ newLine depth ++ quotedText key ++ ": " ++ value.prettyAt depth ++
      prettyMembers depth members

end

def Value.pretty (value : Value) : String := value.prettyAt 0

end MediaSheets.Json
