import MediaSheets.Proofs.DecimalLiterals
import MediaSheets.Proofs.TextSpelling

/-!
# Spellings of tokens

A JSON text spells its tokens one after another, with gaps wherever it likes. `Spells` is
this relation between a text and its tokens, and cutting a text that spells some tokens
gives these tokens.
-/

namespace MediaSheets.Json

/-- The ways to write a token. -/
inductive Token.SpelledAs : Token → List Char → Prop
  | openBracket : SpelledAs .openBracket ['[']
  | closeBracket : SpelledAs .closeBracket [']']
  | openBrace : SpelledAs .openBrace ['\x7b']
  | closeBrace : SpelledAs .closeBrace ['\x7d']
  | comma : SpelledAs .comma [',']
  | colon : SpelledAs .colon [':']
  | null : SpelledAs .null ['n', 'u', 'l', 'l']
  | integer {n : Int} (hn : Exact n) : SpelledAs (.number (.integer n)) (decimal n).toList
  | text {s : String} {spelling : List Char} (h : TextSpelling s.toList spelling) :
      SpelledAs (.text s) ('"' :: spelling ++ ['"'])

/-- The characters spell the tokens: nothing but gaps stands between them, and the characters
of a number end with it. -/
inductive Spells : List Char → List Token → Prop
  | nil : Spells [] []
  | gap {c : Char} {cs : List Char} {ts : List Token} (hc : isGap c = true) (h : Spells cs ts) :
      Spells (c :: cs) ts
  | token {t : Token} {spelling cs : List Char} {ts : List Token} (ht : t.SpelledAs spelling)
      (hends : ∀ n, t = .number n → EndsNumber cs) (h : Spells cs ts) :
      Spells (spelling ++ cs) (t :: ts)

/-! ### Cutting -/

/-- A token is cut off as a whole. -/
def Token.CutFrom (t : Token) (cs rest : List Char) : Prop :=
  ∃ c tail, cs = c :: tail ∧ isGap c = false ∧ scanFrom c tail = (t, rest)

lemma isGap_of_digit {c : Char} (hc : c = '-' ∨ c.isDigit = true) : isGap c = false := by
  rw [← Bool.not_eq_true]
  intro hgap
  simp only [isGap, Bool.or_eq_true, decide_eq_true_eq] at hgap
  rcases hgap with ((rfl | rfl) | rfl) | rfl
  all_goals exact absurd hc (by decide)

lemma scanFrom_of_digit {c : Char} (hc : c = '-' ∨ c.isDigit = true) (cs : List Char) :
    Token.scanFrom c cs = Token.orBroken .other .number (Number.scan (c :: cs)) := by
  unfold Token.scanFrom
  split
  any_goals
    exfalso
    revert hc
    decide
  exact if_pos (by simpa using hc)

lemma Token.SpelledAs.cutFrom {t : Token} {spelling : List Char} (h : t.SpelledAs spelling)
    {rest : List Char} (hends : ∀ n, t = .number n → EndsNumber rest) :
    t.CutFrom (spelling ++ rest) rest := by
  cases h with
  | null => exact ⟨'n', _, rfl, rfl, rfl⟩
  | @integer n hn =>
    obtain ⟨c, cs, htext, hc⟩ := exists_decimal_cons n
    have hscan := Number.scan_decimal hn (hends _ rfl)
    rw [htext] at hscan ⊢
    refine ⟨c, cs ++ rest, rfl, isGap_of_digit hc, ?_⟩
    rw [scanFrom_of_digit hc, ← List.cons_append, hscan]
    rfl
  | @text s spelling h =>
    refine ⟨'"', spelling ++ '"' :: rest, by simp, rfl, ?_⟩
    have hscan := scanText_of_textSpelling h rest
    simp only [scanFrom, hscan, orBroken, String.ofList_toList]
  | _ => exact ⟨_, _, rfl, rfl, rfl⟩

/-- Cutting a text gives the tokens that it spells. -/
theorem ofChars_of_spells {cs : List Char} {ts : List Token} (h : Spells cs ts) :
    Token.ofChars cs = ts := by
  induction h with
  | nil => rw [Token.ofChars]
  | gap hc _ ih => rw [Token.ofChars, if_pos hc, ih]
  | token ht hends _ ih =>
    obtain ⟨c, tail, hcs, hgap, hscan⟩ := ht.cutFrom hends
    rw [hcs, Token.ofChars, if_neg (by simp [hgap])]
    simp only [hscan, ih]

end MediaSheets.Json
