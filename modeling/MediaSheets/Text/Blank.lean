/-!
# Blank text

Unicode's `White_Space` characters, and the texts that hold nothing else.
-/

namespace MediaSheets.Text

/-- The code points with Unicode's `White_Space` property, as inclusive ranges. -/
def whiteSpaceRanges : List (Nat × Nat) :=
  [(0x9, 0xD), (0x20, 0x20), (0x85, 0x85), (0xA0, 0xA0), (0x1680, 0x1680), (0x2000, 0x200A),
    (0x2028, 0x2029), (0x202F, 0x202F), (0x205F, 0x205F), (0x3000, 0x3000)]

/-- Whether a character has Unicode's `White_Space` property. -/
def isWhiteSpace (c : Char) : Bool :=
  whiteSpaceRanges.any fun (first, last) => first ≤ c.toNat && c.toNat ≤ last

/-- A text is blank when it is empty or holds white space alone. -/
def isBlank (s : String) : Bool := s.toList.all isWhiteSpace

end MediaSheets.Text
