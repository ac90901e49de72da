import MediaSheets.Json.Number
import Mathlib.Init

/-!
# The grammar of JSON texts

`Tree.WrittenAs` says which characters write a JSON value: how a text may be escaped, what a
number looks like, and that gaps may stand around every key and every value. Nothing here
speaks of reading. A tree keeps what the characters mean, and `Tree.WrittenIn` holds of the
texts that write one.
-/

namespace MediaSheets.Json

/-- Blanks that may stand between tokens. -/
abbrev Gap := { cs : List Char // ∀ c ∈ cs, c ∈ [' ', '\t', '\n', '\r'] }

/-! ### Quoted texts -/

/-- A hexadecimal digit with its value, in either case. -/
def IsHexDigit (n : Nat) (c : Char) : Prop :=
  ['0', '1', '2', '3', '4', '5', '6', '7', '8', '9', 'a', 'b', 'c', 'd', 'e', 'f'][n]? = some c ∨
    ['0', '1', '2', '3', '4', '5', '6', '7', '8', '9', 'A', 'B', 'C', 'D', 'E', 'F'][n]? = some c

instance (n : Nat) (c : Char) : Decidable (IsHexDigit n c) := inferInstanceAs (Decidable (_ ∨ _))

/-- A unit of 16 bits is escaped by four digits. -/
inductive UnitWrittenAs : Nat → List Char → Prop
  | digits {n₁ n₂ n₃ n₄ : Nat} {d₁ d₂ d₃ d₄ : Char} (h₁ : IsHexDigit n₁ d₁)
      (h₂ : IsHexDigit n₂ d₂) (h₃ : IsHexDigit n₃ d₃) (h₄ : IsHexDigit n₄ d₄) :
      UnitWrittenAs (n₁ * 4096 + n₂ * 256 + n₃ * 16 + n₄) ['\\', 'u', d₁, d₂, d₃, d₄]

/-- The letters that stand for a character behind a backslash. -/
def shortEscapes : List (Char × Char) :=
  [('"', '"'), ('\\', '\\'), ('/', '/'), ('b', '\x08'), ('f', '\x0c'), ('n', '\n'), ('r', '\r'),
    ('t', '\t')]

/-- The ways to write a character. One that needs more than 16 bits is escaped as a pair of
surrogates. -/
inductive CharWrittenAs (c : Char) : List Char → Prop
  | raw (hcontrol : 0x20 ≤ c.toNat) (hquote : c ≠ '"') (hbackslash : c ≠ '\\') :
      CharWrittenAs c [c]
  | short {letter : Char} (h : (letter, c) ∈ shortEscapes) : CharWrittenAs c ['\\', letter]
  | unit {cs : List Char} (hunit : UnitWrittenAs c.toNat cs) : CharWrittenAs c cs
  | pair {high low : List Char} (hlarge : 0x10000 ≤ c.toNat)
      (hhigh : UnitWrittenAs (0xD800 + (c.toNat - 0x10000) / 0x400) high)
      (hlow : UnitWrittenAs (0xDC00 + (c.toNat - 0x10000) % 0x400) low) :
      CharWrittenAs c (high ++ low)

/-- The ways to write characters one after another. -/
inductive CharsWrittenAs : List Char → List Char → Prop
  | nil : CharsWrittenAs [] []
  | cons {c : Char} {cs written rest : List Char} (hc : CharWrittenAs c written)
      (hcs : CharsWrittenAs cs rest) : CharsWrittenAs (c :: cs) (written ++ rest)

/-- Half of a pair of surrogates is escaped first, and the other half does not come next. -/
inductive Unpaired : List Char → Prop
  | low {unit : Nat} {cs rest : List Char} (h : UnitWrittenAs unit cs)
      (hunit : 0xDC00 ≤ unit ∧ unit < 0xE000) : Unpaired (cs ++ rest)
  | high {unit : Nat} {cs rest : List Char} (h : UnitWrittenAs unit cs)
      (hunit : 0xD800 ≤ unit ∧ unit < 0xDC00)
      (hrest : ∀ low cs', 0xDC00 ≤ low ∧ low < 0xE000 → UnitWrittenAs low cs' → ¬cs' <+: rest) :
      Unpaired (cs ++ rest)

/-- The ways to write a text between quotes. The grammar also lets half of a pair of surrogates
stand alone, and then there is no text that is meant. -/
inductive QuotedAs : Option String → List Char → Prop
  | text {s : String} {cs : List Char} (h : CharsWrittenAs s.toList cs) :
      QuotedAs (some s) ('"' :: cs ++ ['"'])
  | unpaired {before cs rest : List Char} (hbefore : CharsWrittenAs before cs)
      (hrest : Unpaired rest) : QuotedAs none ('"' :: (cs ++ rest) ++ ['"'])

/-! ### Numbers -/

/-- One digit or more. -/
def Digits (cs : List Char) : Prop :=
  cs ≠ [] ∧ ∀ c ∈ cs, c ∈ ['0', '1', '2', '3', '4', '5', '6', '7', '8', '9']

inductive FractionWrittenAs : List Char → List Char → Prop
  | none : FractionWrittenAs [] []
  | digits {ds : List Char} (hds : Digits ds) : FractionWrittenAs ds ('.' :: ds)

inductive ExponentWrittenAs : Option (Bool × List Char) → List Char → Prop
  | none : ExponentWrittenAs .none []
  | digits {negative : Bool} {mark : Char} {sign ds : List Char} (hmark : mark ∈ ['e', 'E'])
      (hsign : sign ∈ if negative then [['-']] else [[], ['+']]) (hds : Digits ds) :
      ExponentWrittenAs (some (negative, ds)) (mark :: (sign ++ ds))

/-- The ways to write a number. A zero is not followed by more whole digits. -/
inductive Literal.WrittenAs : Literal → List Char → Prop
  | number {negative : Bool} {whole fraction cs cs' : List Char}
      {exponent : Option (Bool × List Char)} (hwhole : Digits whole)
      (hzero : whole.head? = some '0' → whole = ['0']) (hfraction : FractionWrittenAs fraction cs)
      (hexponent : ExponentWrittenAs exponent cs') :
      WrittenAs ⟨negative, whole, fraction, exponent⟩
        ((if negative then ['-'] else []) ++ (whole ++ (cs ++ cs')))

/-! ### Values -/

/-- What the characters of a JSON value mean. Texts and keys are missing where half of a pair of
surrogates stands alone. -/
inductive Tree
  | null
  | boolean (value : Bool)
  | number (literal : Literal)
  | text (value : Option String)
  | list (items : List Tree)
  | object (members : List (Option String × Tree))

/-- Characters with gaps around them. -/
structure Placed where
  before : Gap
  chars : List Char
  after : Gap

def Placed.text (p : Placed) : List Char := p.before.1 ++ p.chars ++ p.after.1

/-- A member of an object, and the characters of its key and of its value. -/
structure PlacedMember where
  key : Option String
  value : Tree
  keyChars : Placed
  valueChars : Placed

def PlacedMember.text (m : PlacedMember) : List Char := m.keyChars.text ++ ':' :: m.valueChars.text

/-- The ways to write a value. -/
inductive Tree.WrittenAs : Tree → List Char → Prop
  | null : WrittenAs .null ['n', 'u', 'l', 'l']
  | true : WrittenAs (.boolean .true) ['t', 'r', 'u', 'e']
  | false : WrittenAs (.boolean .false) ['f', 'a', 'l', 's', 'e']
  | number {literal : Literal} {cs : List Char} (h : literal.WrittenAs cs) :
      WrittenAs (.number literal) cs
  | text {value : Option String} {cs : List Char} (h : QuotedAs value cs) :
      WrittenAs (.text value) cs
  | list (gap : Gap) {items : List (Tree × Placed)}
      (hitems : ∀ item ∈ items, item.1.WrittenAs item.2.chars) :
      WrittenAs (.list (items.map (·.1)))
        ('[' :: gap.1 ++ [','].intercalate (items.map (·.2.text)) ++ [']'])
  | object (gap : Gap) {members : List PlacedMember}
      (hkeys : ∀ m ∈ members, QuotedAs m.key m.keyChars.chars)
      (hvalues : ∀ m ∈ members, m.value.WrittenAs m.valueChars.chars) :
      WrittenAs (.object (members.map fun m => (m.key, m.value)))
        ('\x7b' :: gap.1 ++ [','].intercalate (members.map (·.text)) ++ ['\x7d'])

/-- A whole text writes the tree, with gaps around it. -/
def Tree.WrittenIn (tree : Tree) (text : String) : Prop :=
  ∃ p : Placed, tree.WrittenAs p.chars ∧ text.toList = p.text

end MediaSheets.Json
