import MediaSheets.Json.Token
import MediaSheets.Json.Value
import Mathlib.Tactic.SplitIfs

/-!
# Spellings of quoted texts

Between quotes a character stands for itself or is escaped in one of several ways.
`CharSpelling` lists them, and a scan reads a text back from any of its spellings. What is
written out is one of them.
-/

namespace MediaSheets.Json

/-- The ways to write a character between quotes. -/
inductive CharSpelling : Char → List Char → Prop
  | plain {c : Char} (hcontrol : ¬c < ' ') (hquote : c ≠ '"') (hbackslash : c ≠ '\\') :
      CharSpelling c [c]
  | short {letter c : Char} (h : shortEscape? letter = some c) : CharSpelling c ['\\', letter]
  | unit {d₁ d₂ d₃ d₄ : Char} {unit : Nat} (h : codeUnit? d₁ d₂ d₃ d₄ = some unit)
      (hlow : isLowSurrogate unit = false) (hhigh : isHighSurrogate unit = false) :
      CharSpelling (Char.ofNat unit) ['\\', 'u', d₁, d₂, d₃, d₄]
  | pair {d₁ d₂ d₃ d₄ e₁ e₂ e₃ e₄ : Char} {high low : Nat}
      (hd : codeUnit? d₁ d₂ d₃ d₄ = some high) (hhigh : isHighSurrogate high = true)
      (he : codeUnit? e₁ e₂ e₃ e₄ = some low) (hlow : isLowSurrogate low = true) :
      CharSpelling (charOfPair high low)
        ['\\', 'u', d₁, d₂, d₃, d₄, '\\', 'u', e₁, e₂, e₃, e₄]

/-- The ways to write a text between quotes. -/
inductive TextSpelling : List Char → List Char → Prop
  | nil : TextSpelling [] []
  | cons {c : Char} {cs spelling rest : List Char} (hc : CharSpelling c spelling)
      (hcs : TextSpelling cs rest) : TextSpelling (c :: cs) (spelling ++ rest)

/-! ### Scanning -/

lemma shortEscape?_ne_unit {letter c : Char} (h : shortEscape? letter = some c) : letter ≠ 'u' := by
  rintro rfl
  contradiction

lemma not_isLowSurrogate_of_isHighSurrogate {unit : Nat} (h : isHighSurrogate unit = true) :
    isLowSurrogate unit = false := by
  simp only [isHighSurrogate, isLowSurrogate, Bool.and_eq_true, Bool.and_eq_false_iff,
    decide_eq_true_eq, decide_eq_false_iff_not] at h ⊢
  omega

lemma scanText_of_charSpelling {c : Char} {spelling : List Char} (h : CharSpelling c spelling)
    (rest : List Char) : scanText none (spelling ++ rest) = consChar c (scanText none rest) := by
  cases h with
  | plain hcontrol hquote hbackslash =>
    rw [List.cons_append, List.nil_append, scanText, if_neg hcontrol]
    all_goals
      intros
      contradiction
  | short h =>
    have hne := shortEscape?_ne_unit h
    rw [List.cons_append, List.cons_append, List.nil_append, scanText, h]
    all_goals
      intros
      contradiction
  | unit h hlow hhigh =>
    simp only [List.cons_append, List.nil_append, scanText, h, hlow, hhigh]
    rfl
  | pair hd hhigh he hlow =>
    simp only [List.cons_append, List.nil_append, scanText, hd, he, hlow, hhigh,
      not_isLowSurrogate_of_isHighSurrogate hhigh]
    rfl

/-- A scan reads a text back from any of its spellings, up to the closing quote. -/
theorem scanText_of_textSpelling {text spelling : List Char} (h : TextSpelling text spelling)
    (rest : List Char) : scanText none (spelling ++ '"' :: rest) = .ok (text, rest) := by
  induction h with
  | nil => rw [List.nil_append, scanText]
  | cons hc _ ih =>
    rw [List.append_assoc, scanText_of_charSpelling hc, ih]
    rfl

/-! ### Writing -/

lemma hexValue?_hexDigit : ∀ d < 16, hexValue? (hexDigit d) = some d := by decide

lemma codeUnit?_hexDigits {n : Nat} (h : n < 256) :
    codeUnit? '0' '0' (hexDigit (n / 16)) (hexDigit (n % 16)) = some n := by
  have hzero : hexValue? '0' = some 0 := hexValue?_hexDigit 0 (by omega)
  have hhigh := hexValue?_hexDigit (n / 16) (by omega)
  have hlow := hexValue?_hexDigit (n % 16) (by omega)
  have hsum : ((0 * 16 + 0) * 16 + n / 16) * 16 + n % 16 = n := by omega
  simp only [codeUnit?, hzero, hhigh, hlow]
  exact congrArg some hsum

lemma charSpelling_escapedChar (c : Char) : CharSpelling c (escapedChar c) := by
  unfold escapedChar
  split_ifs with hquote hbackslash hback htab hline hfeed hreturn hcontrol
  · exact .short (by rw [hquote]; rfl)
  · exact .short (by rw [hbackslash]; rfl)
  · exact .short (by rw [hback]; rfl)
  · exact .short (by rw [htab]; rfl)
  · exact .short (by rw [hline]; rfl)
  · exact .short (by rw [hfeed]; rfl)
  · exact .short (by rw [hreturn]; rfl)
  · have hlt : c.toNat < 32 := hcontrol
    have hunit := codeUnit?_hexDigits (n := c.toNat) (by omega)
    have hspelling := CharSpelling.unit hunit (by simp [isLowSurrogate]; omega)
      (by simp [isHighSurrogate]; omega)
    rwa [Char.ofNat_toNat] at hspelling
  · exact .plain hcontrol hquote hbackslash

lemma textSpelling_escaped (cs : List Char) : TextSpelling cs (cs.flatMap escapedChar) := by
  induction cs with
  | nil => exact .nil
  | cons c cs ih => exact .cons (charSpelling_escapedChar c) ih

end MediaSheets.Json
