import MediaSheets.Decimal.Layout
import MediaSheets.Text.Quoted

/-!
# Faults of a JSON text

Why a text is refused: its grammar breaks off, or what it holds is not what is asked for. Faults
are causes; `Fault.message` is the only place with their wording.
-/

namespace MediaSheets.Json

/-- A number as read: exact while it is an integer of 64 bits, a double otherwise. -/
inductive Number
  | integer (value : Int)
  | floating (value : Float)

inductive Found
  | null
  | boolean (value : Bool)
  | number (value : Number)
  | text (value : String)
  | list
  | object
  /-- The bare name of a variant. -/
  | bareVariant

inductive Wanted
  | text
  | int32
  | uint32
  | list
  | unit
  | record (name : String)
  | variantWithValue
  deriving DecidableEq

inductive Fault
  | endInValue
  | endInText
  | endInList
  | endInObject
  | expectedValue
  | expectedWord
  | expectedColon
  | expectedCommaOrBracket
  | expectedCommaOrBrace
  | keyNotText
  | trailingComma
  | trailingCharacters
  | controlCharacter
  | invalidEscape
  | loneSurrogate
  | highSurrogateAlone
  | invalidNumber
  | numberTooLarge
  | tooDeep
  | wrongType (found : Found) (wanted : Wanted)
  | outOfRange (value : Int) (wanted : Wanted)
  | tooShort (length : Nat) (record : String) (fields : Nat)
  | unknownField (key : String) (fields : List String)
  | repeatedField (key : String)
  | missingField (key : String)
  | unknownVariant (name : String) (variants : List String)
  | noAlternative (type : String)

/-- Doubles in messages: a point alone from 10⁻⁵ up to below 10¹⁶. -/
def floatLayout : Decimal.Layout := ⟨-5, 16⟩

def Found.wording : Found → String
  | .null => "null"
  | .boolean value => s!"boolean `{value}`"
  | .number (.integer value) => s!"integer `{value}`"
  | .number (.floating value) => "floating point `" ++ floatLayout.text value ++ "`"
  | .text value => "string " ++ Text.quoted value
  | .list => "sequence"
  | .object => "map"
  | .bareVariant => "unit variant"

def Wanted.wording : Wanted → String
  | .text => "a string"
  | .int32 => "i32"
  | .uint32 => "u32"
  | .list => "a sequence"
  | .unit => "unit"
  | .record name => "struct " ++ name
  | .variantWithValue => "newtype variant"

/-- The names that would have been accepted. -/
def alternatives (names : List String) : String :=
  match names.map fun name => s!"`{name}`" with
  | [first, second] => first ++ " or " ++ second
  | [only] => only
  | several => "one of " ++ ", ".intercalate several

def Fault.message : Fault → String
  | .endInValue => "EOF while parsing a value"
  | .endInText => "EOF while parsing a string"
  | .endInList => "EOF while parsing a list"
  | .endInObject => "EOF while parsing an object"
  | .expectedValue => "expected value"
  | .expectedWord => "expected ident"
  | .expectedColon => "expected `:`"
  | .expectedCommaOrBracket => "expected `,` or `]`"
  | .expectedCommaOrBrace => "expected `,` or `\x7d`"
  | .keyNotText => "key must be a string"
  | .trailingComma => "trailing comma"
  | .trailingCharacters => "trailing characters"
  | .controlCharacter =>
    "control character (\\u0000-\\u001F) found while parsing a string"
  | .invalidEscape => "invalid escape"
  | .loneSurrogate => "lone leading surrogate in hex escape"
  | .highSurrogateAlone => "unexpected end of hex escape"
  | .invalidNumber => "invalid number"
  | .numberTooLarge => "number out of range"
  | .tooDeep => "recursion limit exceeded"
  | .wrongType found wanted => "invalid type: " ++ found.wording ++ ", expected " ++ wanted.wording
  | .outOfRange value wanted =>
    "invalid value: " ++ (Found.number (.integer value)).wording ++ ", expected " ++ wanted.wording
  | .tooShort length record fields =>
    s!"invalid length {length}, expected struct {record} with {fields} " ++
      if fields = 1 then "element" else "elements"
  | .unknownField key fields => s!"unknown field `{key}`, expected " ++ alternatives fields
  | .repeatedField key => s!"duplicate field `{key}`"
  | .missingField key => s!"missing field `{key}`"
  | .unknownVariant name variants =>
    s!"unknown variant `{name}`, expected " ++ alternatives variants
  | .noAlternative type => s!"data did not match any variant of untagged enum {type}"

end MediaSheets.Json
