import MediaSheets.Json.Fault

/-!
# Numbers of a JSON text

A literal is split into its digits first (`Literal.scan`) and given its value afterwards
(`Literal.value`). Integers of 64 bits are exact. Any other number is a double: the leading digits
that fit into 64 bits, scaled by a power of ten.
-/

namespace MediaSheets.Json

/-- A number literal taken apart; the digits are characters from `0` to `9`. -/
structure Literal where
  negative : Bool
  whole : List Char
  /-- The digits after the point, none if there is no point. -/
  fraction : List Char
  /-- Whether the exponent is negative, and its digits. -/
  exponent : Option (Bool × List Char)

/-- At least one digit, and the characters after the last of them. -/
def scanDigits (cs : List Char) : Except Fault (List Char × List Char) :=
  match cs.takeWhile Char.isDigit, cs.dropWhile Char.isDigit with
  | [], [] => .error .endInValue
  | [], _ => .error .invalidNumber
  | digits, rest => .ok (digits, rest)

/-- Whole digits: a zero stands alone. -/
def scanWhole (cs : List Char) : Except Fault (List Char × List Char) := do
  match ← scanDigits cs with
  | ('0' :: _ :: _, _) => .error .invalidNumber
  | split => .ok split

def scanFraction : List Char → Except Fault (List Char × List Char)
  | '.' :: cs => scanDigits cs
  | cs => .ok ([], cs)

def scanExponent : List Char → Except Fault (Option (Bool × List Char) × List Char)
  | c :: cs =>
    if c = 'e' ∨ c = 'E' then
      match cs with
      | '-' :: cs => (scanDigits cs).map fun (digits, rest) => (some (true, digits), rest)
      | '+' :: cs => (scanDigits cs).map fun (digits, rest) => (some (false, digits), rest)
      | cs => (scanDigits cs).map fun (digits, rest) => (some (false, digits), rest)
    else .ok (none, c :: cs)
  | [] => .ok (none, [])

/-- The literal at the front, after its sign, and the characters after it. -/
def Literal.scanUnsigned (negative : Bool) (cs : List Char) : Except Fault (Literal × List Char) :=
  do
  let (whole, cs) ← scanWhole cs
  let (fraction, cs) ← scanFraction cs
  let (exponent, cs) ← scanExponent cs
  return (⟨negative, whole, fraction, exponent⟩, cs)

/-- The literal at the front and the characters after it. -/
def Literal.scan : List Char → Except Fault (Literal × List Char)
  | '-' :: cs => scanUnsigned true cs
  | cs => scanUnsigned false cs

def digitValue (c : Char) : Nat := c.toNat - '0'.toNat

def natOfDigits (digits : List Char) : Nat :=
  digits.foldl (fun n c => 10 * n + digitValue c) 0

/-- Appends digits to a significand while it stays below 2⁶⁴, and says how many were taken. -/
def appendDigits (significand : Nat) : List Char → Nat × Nat
  | [] => (significand, 0)
  | c :: cs =>
    let longer := 10 * significand + digitValue c
    if longer < UInt64.size then
      let (final, taken) := appendDigits longer cs
      (final, taken + 1)
    else (significand, 0)

/-- Ten to a power of at most 308. -/
def powerOfTen (n : Nat) : Float := OfScientific.ofScientific 1 false n

/-- A double divided by a power of ten, in steps of at most 308 places. -/
def scaleDown (x : Float) (places : Nat) : Float :=
  if places ≤ 308 then x / powerOfTen places
  else if x == 0 then x
  else scaleDown (x / powerOfTen 308) (places - 308)
termination_by places

/-- `significand * 10 ^ exponent` as a double, refused if no double is that large. -/
def scaled (significand : Nat) (exponent : Int) : Except Fault Float :=
  let x := significand.toUInt64.toFloat
  match exponent with
  | .negSucc n => .ok (scaleDown x (n + 1))
  | .ofNat n =>
    if n ≤ 308 then
      let y := x * powerOfTen n
      if y.isInf then .error .numberTooLarge else .ok y
    else if x == 0 then .ok x
    else .error .numberTooLarge

/-- The absolute value of a literal as a double. An exponent part that does not fit into 32 bits
leaves zero, or no double at all. -/
def Literal.magnitude (l : Literal) : Except Fault Float :=
  let (front, taken) := appendDigits 0 l.whole
  let (significand, places) := appendDigits front l.fraction
  let shift : Int := (l.whole.length - taken : Nat) - (places : Int)
  match l.exponent with
  | none => scaled significand shift
  | some (negative, digits) =>
    let written := natOfDigits digits
    if 2147483648 ≤ written then
      if significand ≠ 0 ∧ negative = false then .error .numberTooLarge else .ok 0
    else scaled significand (if negative then shift - written else shift + written)

/-- Whether a literal has neither point nor exponent. -/
def Literal.isInteger (l : Literal) : Bool := l.fraction.isEmpty && l.exponent.isNone

/-- The value of a literal. Integers from -2⁶³ to 2⁶⁴ - 1 stay exact, a negative zero apart. -/
def Literal.value (l : Literal) : Except Fault Number :=
  let n := natOfDigits l.whole
  if l.isInteger && l.negative && 0 < n && n ≤ 9223372036854775808 then .ok (.integer (-n))
  else if l.isInteger && !l.negative && n < UInt64.size then .ok (.integer n)
  else l.magnitude.map fun x => .floating (if l.negative then -x else x)

/-- The number at the front and the characters after it. -/
def Number.scan (cs : List Char) : Except Fault (Number × List Char) := do
  let (literal, rest) ← Literal.scan cs
  return (← literal.value, rest)

theorem scanDigits_length_lt {cs digits rest : List Char}
    (h : scanDigits cs = .ok (digits, rest)) : rest.length < cs.length := by
  have hsplit : (cs.takeWhile Char.isDigit ++ cs.dropWhile Char.isDigit).length = cs.length := by
    rw [List.takeWhile_append_dropWhile]
  unfold scanDigits at h
  split at h
  · contradiction
  · contradiction
  · next hnil _ =>
    simp only [Except.ok.injEq, Prod.mk.injEq] at h
    obtain ⟨rfl, rfl⟩ := h
    have := List.length_pos_iff.mpr hnil
    rw [List.length_append] at hsplit
    omega

theorem scanWhole_length_lt {cs digits rest : List Char}
    (h : scanWhole cs = .ok (digits, rest)) : rest.length < cs.length := by
  unfold scanWhole at h
  cases hd : scanDigits cs with
  | error _ => simp [hd, bind, Except.bind] at h
  | ok split =>
    simp only [hd, bind, Except.bind] at h
    have hlt := scanDigits_length_lt hd
    grind

theorem scanFraction_length_le {cs digits rest : List Char}
    (h : scanFraction cs = .ok (digits, rest)) : rest.length ≤ cs.length := by
  unfold scanFraction at h
  split at h
  · have := scanDigits_length_lt h; simp; omega
  · grind

theorem scanExponent_length_le {cs rest : List Char} {exponent : Option (Bool × List Char)}
    (h : scanExponent cs = .ok (exponent, rest)) : rest.length ≤ cs.length := by
  have hmap {cs : List Char} {b : Bool} (h : (scanDigits cs).map
      (fun (digits, rest) => (some (b, digits), rest)) = .ok (exponent, rest)) :
      rest.length ≤ cs.length := by
    cases hd : scanDigits cs with
    | error _ => simp [hd, Except.map] at h
    | ok split =>
      have := scanDigits_length_lt hd
      simp only [hd, Except.map, Except.ok.injEq, Prod.mk.injEq] at h
      grind
  unfold scanExponent at h
  split at h
  · split at h
    · split at h <;> exact Nat.le_trans (hmap h) (by simp only [List.length_cons]; omega)
    · grind
  · grind

theorem Literal.scanUnsigned_length_lt {negative : Bool} {cs rest : List Char} {l : Literal}
    (h : scanUnsigned negative cs = .ok (l, rest)) : rest.length < cs.length := by
  unfold scanUnsigned at h
  simp only [bind, Except.bind, pure, Except.pure] at h
  split at h
  · contradiction
  next whole hw =>
    split at h
    · contradiction
    next fraction hf =>
      split at h
      · contradiction
      next exponent he =>
        have := scanWhole_length_lt hw
        have := scanFraction_length_le hf
        have := scanExponent_length_le he
        grind

theorem Literal.scan_length_lt {cs rest : List Char} {l : Literal}
    (h : scan cs = .ok (l, rest)) : rest.length < cs.length := by
  unfold scan at h
  split at h
  · have := scanUnsigned_length_lt h; simp; omega
  · exact scanUnsigned_length_lt h

theorem Number.scan_length_lt {cs rest : List Char} {n : Number}
    (h : scan cs = .ok (n, rest)) : rest.length < cs.length := by
  unfold scan at h
  simp only [bind, Except.bind, pure, Except.pure] at h
  split at h
  · contradiction
  next literal hl =>
    have := Literal.scan_length_lt hl
    split at h
    · contradiction
    · grind

end MediaSheets.Json
