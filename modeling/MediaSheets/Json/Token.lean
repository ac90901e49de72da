import MediaSheets.Json.Number

/-!
# Tokens of a JSON text

`Token.ofText` cuts a text into its tokens and leaves out the blanks between them. A scalar that
breaks off becomes a token of its own, which carries the fault, and ends the list.
-/

namespace MediaSheets.Json

/-- What a broken scalar set out to be. -/
inductive Start
  | null
  | text
  | other
  deriving DecidableEq

inductive Token
  | openBracket
  | closeBracket
  | openBrace
  | closeBrace
  | comma
  | colon
  | null
  | boolean (value : Bool)
  | number (value : Number)
  | text (value : String)
  /-- A scalar whose characters break off. -/
  | broken (start : Start) (fault : Fault)
  /-- A character with which nothing starts. -/
  | stray

/-- The four characters allowed between tokens. -/
def isGap (c : Char) : Bool := c = ' ' || c = '\n' || c = '\r' || c = '\t'

/-- The rest after the characters of a word. -/
def scanWord : (word cs : List Char) → Except Fault (List Char)
  | [], cs => .ok cs
  | _ :: _, [] => .error .endInValue
  | w :: word, c :: cs => if c = w then scanWord word cs else .error .expectedWord

def hexValue? (c : Char) : Option Nat :=
  if '0' ≤ c ∧ c ≤ '9' then some (c.toNat - '0'.toNat)
  else if 'a' ≤ c ∧ c ≤ 'f' then some (c.toNat - 'a'.toNat + 10)
  else if 'A' ≤ c ∧ c ≤ 'F' then some (c.toNat - 'A'.toNat + 10)
  else none

/-- The 16-bit unit that four hexadecimal digits write. -/
def codeUnit? (a b c d : Char) : Option Nat := do
  return (((← hexValue? a) * 16 + (← hexValue? b)) * 16 + (← hexValue? c)) * 16 + (← hexValue? d)

def isHighSurrogate (unit : Nat) : Bool := 0xD800 ≤ unit && unit ≤ 0xDBFF

def isLowSurrogate (unit : Nat) : Bool := 0xDC00 ≤ unit && unit ≤ 0xDFFF

/-- The character that a pair of surrogates stands for. -/
def charOfPair (high low : Nat) : Char :=
  Char.ofNat (0x10000 + (high - 0xD800) * 0x400 + (low - 0xDC00))

/-- The character that a backslash and one letter stand for. -/
def shortEscape? : Char → Option Char
  | '"' => some '"'
  | '\\' => some '\\'
  | '/' => some '/'
  | 'b' => some '\x08'
  | 'f' => some '\x0c'
  | 'n' => some '\n'
  | 'r' => some '\r'
  | 't' => some '\t'
  | _ => none

/-- Why four hexadecimal digits cannot be read: fewer than four bytes are left, or one of them is
no digit. -/
def hexFault (cs : List Char) : Fault :=
  if (String.ofList cs).utf8ByteSize < 4 then .endInText else .invalidEscape

def consChar (c : Char) :
    Except Fault (List Char × List Char) → Except Fault (List Char × List Char)
  | .ok (text, rest) => .ok (c :: text, rest)
  | .error fault => .error fault

/-- The text up to the closing quote, and the characters after that quote. `high` is the first half
of a pair of surrogates whose second half must come next. -/
def scanText : (high : Option Nat) → List Char → Except Fault (List Char × List Char)
  | _, [] => .error .endInText
  | _, ['\\'] => .error .endInText
  | some high, '\\' :: 'u' :: a :: b :: c :: d :: rest =>
    match codeUnit? a b c d with
    | none => .error .invalidEscape
    | some low =>
      if isLowSurrogate low then consChar (charOfPair high low) (scanText none rest)
      else .error .loneSurrogate
  | none, '\\' :: 'u' :: a :: b :: c :: d :: rest =>
    match codeUnit? a b c d with
    | none => .error .invalidEscape
    | some unit =>
      if isLowSurrogate unit then .error .loneSurrogate
      else if isHighSurrogate unit then scanText (some unit) rest
      else consChar (Char.ofNat unit) (scanText none rest)
  | _, '\\' :: 'u' :: rest => .error (hexFault rest)
  | some _, _ :: _ => .error .highSurrogateAlone
  | none, '\\' :: letter :: rest =>
    match shortEscape? letter with
    | some c => consChar c (scanText none rest)
    | none => .error .invalidEscape
  | none, '"' :: rest => .ok ([], rest)
  | none, c :: rest =>
    if c < ' ' then .error .controlCharacter else consChar c (scanText none rest)

/-- A token, or the broken token that stands for the fault. -/
def Token.orBroken (start : Start) (f : α → Token) :
    Except Fault (α × List Char) → Token × List Char
  | .ok (value, rest) => (f value, rest)
  | .error fault => (.broken start fault, [])

/-- The token that starts with `c`, and the characters after it. -/
def Token.scanFrom (c : Char) (cs : List Char) : Token × List Char :=
  match c with
  | '[' => (.openBracket, cs)
  | ']' => (.closeBracket, cs)
  | '{' => (.openBrace, cs)
  | '}' => (.closeBrace, cs)
  | ',' => (.comma, cs)
  | ':' => (.colon, cs)
  | 'n' => orBroken .null (fun _ => .null) ((scanWord ['u', 'l', 'l'] cs).map ((), ·))
  | 't' => orBroken .other .boolean ((scanWord ['r', 'u', 'e'] cs).map (true, ·))
  | 'f' => orBroken .other .boolean ((scanWord ['a', 'l', 's', 'e'] cs).map (false, ·))
  | '"' => orBroken .text (fun text => .text (String.ofList text)) (scanText none cs)
  | _ =>
    if c = '-' || c.isDigit then orBroken .other .number (Number.scan (c :: cs))
    else (.stray, [])

theorem scanWord_length_le {word cs rest : List Char} (h : scanWord word cs = .ok rest) :
    rest.length ≤ cs.length := by
  fun_induction scanWord word cs with
  | case1 => simp_all
  | case2 => simp at h
  | case3 _ _ _ ih => have := ih h; simp; omega
  | case4 => simp at h

theorem length_lt_of_consChar {c : Char} {r : Except Fault (List Char × List Char)}
    {text rest : List Char} {n : Nat} (h : consChar c r = .ok (text, rest))
    (hr : ∀ {text}, r = .ok (text, rest) → rest.length < n) : rest.length < n := by
  match r with
  | .ok (tail, rest') =>
    simp only [consChar, Except.ok.injEq, Prod.mk.injEq] at h
    exact hr (by rw [h.2])
  | .error _ => simp [consChar] at h

theorem scanText_length_lt {high : Option Nat} {cs text rest : List Char}
    (h : scanText high cs = .ok (text, rest)) : rest.length < cs.length := by
  fun_induction scanText high cs generalizing text
  all_goals try contradiction
  case case14 => grind
  all_goals
    rename_i ih
    simp only [List.length_cons]
    first
      | exact Nat.lt_trans (length_lt_of_consChar h ih) (by omega)
      | exact Nat.lt_trans (ih h) (by omega)

theorem Token.orBroken_length_le {α : Type} {start : Start} {f : α → Token} {n : Nat}
    {r : Except Fault (α × List Char)} (h : ∀ value rest, r = .ok (value, rest) → rest.length ≤ n) :
    (orBroken start f r).2.length ≤ n := by
  match r with
  | .ok (value, rest) => exact h value rest rfl
  | .error _ => exact Nat.zero_le n

/-- A token takes at least its first character. -/
theorem Token.scanFrom_length_le (c : Char) (cs : List Char) :
    (scanFrom c cs).2.length ≤ cs.length := by
  have hword {α : Type} {value : α} {word : List Char} (v : α) (rest : List Char)
      (h : (scanWord word cs).map (value, ·) = .ok (v, rest)) : rest.length ≤ cs.length := by
    cases hw : scanWord word cs with
    | ok tail =>
      simp only [hw, Except.map, Except.ok.injEq, Prod.mk.injEq] at h
      exact h.2 ▸ scanWord_length_le hw
    | error _ => simp [hw, Except.map] at h
  unfold scanFrom
  split
  any_goals exact Nat.le_refl _
  any_goals exact orBroken_length_le hword
  · exact orBroken_length_le fun _ _ h => Nat.le_of_lt (scanText_length_lt h)
  · split
    · exact orBroken_length_le fun _ _ h => Nat.le_of_lt_succ (Number.scan_length_lt h)
    · exact Nat.zero_le _

def Token.ofChars : List Char → List Token
  | [] => []
  | c :: cs =>
    if isGap c then ofChars cs
    else
      let next := scanFrom c cs
      next.1 :: ofChars next.2
termination_by cs => cs.length
decreasing_by
  · simp
  · exact Nat.lt_succ_of_le (scanFrom_length_le c cs)

def Token.ofText (text : String) : List Token := ofChars text.toList

end MediaSheets.Json
