import MediaSheets.Proofs.JoinedTexts
import MediaSheets.Proofs.JsonGrammar
import MediaSheets.Proofs.TokenSpelling
import Mathlib.Tactic.IntervalCases

/-!
# Tokens of the grammar

`Tree.tokens` are the tokens that are due for a tree. A scalar that cannot be taken, which is
a number out of range or a text with half of a pair of surrogates, has none, and cutting
stops there: `CutAs` compares what is due with what is cut. Every text that the grammar
derives for a tree is cut as its tokens.
-/

namespace MediaSheets.Json

/-- Tokens are cut as they are due, up to the first one that breaks off. -/
inductive CutAs : List (Option Token) → List Token → Prop
  | nil : CutAs [] []
  | token {t : Token} {us : List (Option Token)} {ts : List Token} (h : CutAs us ts) :
      CutAs (some t :: us) (t :: ts)
  | broken {us : List (Option Token)} {start : Start} {fault : Fault} :
      CutAs (none :: us) [.broken start fault]

lemma CutAs.eq_of_map_some {ts us : List Token} (h : CutAs (ts.map some) us) : us = ts := by
  induction ts generalizing us with
  | nil =>
    cases h
    rfl
  | cons t ts ih =>
    cases h with
    | token h => rw [ih h]

/-- In front of any text that does not go on with a number, the characters are cut as the
tokens. -/
def Yields (cs : List Char) (us : List (Option Token)) : Prop :=
  ∀ rest ws, EndsNumber rest → CutAs ws (Token.ofChars rest) →
    CutAs (us ++ ws) (Token.ofChars (cs ++ rest))

/-! ### Characters in front of others -/

/-- The characters do not go on with a number, and neither does anything behind them. -/
def Stops (cs : List Char) : Prop := ∀ rest, EndsNumber rest → EndsNumber (cs ++ rest)

lemma Yields.append {cs cs' : List Char} {us us' : List (Option Token)} (h : Yields cs us)
    (h' : Yields cs' us') (hstops : Stops cs') : Yields (cs ++ cs') (us ++ us') := by
  intro rest ws hrest hws
  rw [List.append_assoc, List.append_assoc]
  exact h _ _ (hstops rest hrest) (h' rest ws hrest hws)

lemma stops_cons {c : Char} (hc : EndsNumber [c]) (cs : List Char) : Stops (c :: cs) :=
  fun _ _ => hc

lemma ofChars_of_cutFrom {t : Token} {cs rest : List Char} (h : t.CutFrom cs rest) :
    Token.ofChars cs = t :: Token.ofChars rest := by
  obtain ⟨c, tail, rfl, hgap, hscan⟩ := h
  rw [Token.ofChars, if_neg (by simp [hgap])]
  simp only [hscan]

lemma yields_of_cutFrom {t : Token} {cs : List Char}
    (h : ∀ rest, EndsNumber rest → t.CutFrom (cs ++ rest) rest) : Yields cs [some t] := by
  intro rest ws hrest hws
  rw [ofChars_of_cutFrom (h rest hrest)]
  exact hws.token

lemma yields_of_spelledAs {t : Token} {cs : List Char} (h : t.SpelledAs cs) :
    Yields cs [some t] :=
  yields_of_cutFrom fun _ hrest => h.cutFrom fun _ _ => hrest

/-- Nothing is cut behind a scalar that breaks off. -/
lemma yields_of_broken {cs : List Char} (h : ∀ rest, EndsNumber rest →
    ∃ start fault, (Token.broken start fault).CutFrom (cs ++ rest) []) : Yields cs [none] := by
  intro rest ws hrest _
  obtain ⟨start, fault, hcut⟩ := h rest hrest
  rw [ofChars_of_cutFrom hcut, Token.ofChars]
  exact .broken

/-! ### Gaps -/

lemma mem_gap_iff {c : Char} : c ∈ [' ', '\t', '\n', '\r'] ↔ isGap c = true := by
  simp only [isGap, List.mem_cons, List.not_mem_nil, or_false, Bool.or_eq_true, decide_eq_true_eq]
  tauto

lemma Yields.after_gap (gap : Gap) {cs : List Char} {us : List (Option Token)}
    (h : Yields cs us) : Yields (gap.1 ++ cs) us := by
  obtain ⟨blanks, hblanks⟩ := gap
  intro rest ws hrest hws
  induction blanks with
  | nil => exact h rest ws hrest hws
  | cons c blanks ih =>
    rw [List.cons_append, List.cons_append, Token.ofChars,
      if_pos (mem_gap_iff.mp (hblanks c (by simp)))]
    exact ih fun c hc => hblanks c (by simp [hc])

lemma stops_gap (gap : Gap) : Stops gap.1 := by
  obtain ⟨blanks, hblanks⟩ := gap
  intro rest hrest
  cases blanks with
  | nil => exact hrest
  | cons c blanks =>
    have hends : ∀ c ∈ [' ', '\t', '\n', '\r'], EndsNumber [c] := by
      simp only [List.forall_mem_cons, List.not_mem_nil, false_imp_iff, implies_true, and_true]
      decide
    exact hends c (hblanks c (by simp))

lemma yields_gap (gap : Gap) : Yields gap.1 [] := by
  have hnone : Yields [] [] := fun _ _ _ hws => hws
  have h := hnone.after_gap gap
  rwa [List.append_nil] at h

lemma yields_placed {p : Placed} {us : List (Option Token)} (h : Yields p.chars us) :
    Yields p.text us := by
  have hafter := h.append (yields_gap p.after) (stops_gap p.after)
  rw [List.append_nil] at hafter
  rw [Placed.text, List.append_assoc]
  exact hafter.after_gap p.before

/-! ### Quoted texts -/

lemma hexValue?_of_isHexDigit {n : Nat} {c : Char} (h : IsHexDigit n c) :
    hexValue? c = some n := by
  have hlt : n < 16 := by
    rcases h with h | h
    all_goals exact (List.getElem?_eq_some_iff.mp h).1
  rcases h with h | h
  all_goals
    interval_cases n
    all_goals
      obtain rfl := Option.some.inj h
      decide

lemma isHexDigit_of_hexValue? {n : Nat} {c : Char} (h : hexValue? c = some n) :
    IsHexDigit n c := by
  have hlt : c.toNat < 103 := by
    unfold hexValue? at h
    split at h
    next hdigit => exact Nat.lt_of_le_of_lt hdigit.2 (by decide)
    next =>
      split at h
      next hlower => exact Nat.lt_of_le_of_lt hlower.2 (by decide)
      next =>
        split at h
        next hupper => exact Nat.lt_of_le_of_lt hupper.2 (by decide)
        next => contradiction
  have hall : ∀ k < 103, ∀ n ∈ hexValue? (Char.ofNat k), IsHexDigit n (Char.ofNat k) := by decide
  have hc := hall c.toNat hlt n
  rw [Char.ofNat_toNat] at hc
  exact hc h

lemma unitWrittenAs_iff {unit : Nat} {cs : List Char} :
    UnitWrittenAs unit cs ↔
      ∃ a b c d, cs = ['\\', 'u', a, b, c, d] ∧ codeUnit? a b c d = some unit := by
  constructor
  · rintro ⟨h₁, h₂, h₃, h₄⟩
    refine ⟨_, _, _, _, rfl, ?_⟩
    simp only [codeUnit?, hexValue?_of_isHexDigit h₁, hexValue?_of_isHexDigit h₂,
      hexValue?_of_isHexDigit h₃, hexValue?_of_isHexDigit h₄]
    refine congrArg some ?_
    omega
  · rintro ⟨a, b, c, d, rfl, h⟩
    simp only [codeUnit?, Option.bind_eq_bind, Option.bind_eq_some_iff] at h
    obtain ⟨n₁, h₁, n₂, h₂, n₃, h₃, n₄, h₄, h⟩ := h
    have hunit : unit = n₁ * 4096 + n₂ * 256 + n₃ * 16 + n₄ := by
      have := Option.some.inj h
      omega
    rw [hunit]
    exact .digits (isHexDigit_of_hexValue? h₁) (isHexDigit_of_hexValue? h₂)
      (isHexDigit_of_hexValue? h₃) (isHexDigit_of_hexValue? h₄)

lemma isLowSurrogate_iff {unit : Nat} :
    isLowSurrogate unit = true ↔ 0xDC00 ≤ unit ∧ unit < 0xE000 := by
  simp [isLowSurrogate]
  omega

lemma isHighSurrogate_iff {unit : Nat} :
    isHighSurrogate unit = true ↔ 0xD800 ≤ unit ∧ unit < 0xDC00 := by
  simp [isHighSurrogate]
  omega

lemma charSpelling_of_charWrittenAs {c : Char} {cs : List Char} (h : CharWrittenAs c cs) :
    CharSpelling c cs := by
  cases h with
  | raw hcontrol hquote hbackslash =>
    exact .plain (fun hlt => absurd hlt (Nat.not_lt.mpr hcontrol)) hquote hbackslash
  | short h =>
    simp only [shortEscapes, List.mem_cons, List.not_mem_nil, or_false, Prod.mk.injEq] at h
    rcases h with ⟨rfl, rfl⟩ | ⟨rfl, rfl⟩ | ⟨rfl, rfl⟩ | ⟨rfl, rfl⟩ | ⟨rfl, rfl⟩ | ⟨rfl, rfl⟩ |
      ⟨rfl, rfl⟩ | ⟨rfl, rfl⟩
    all_goals exact .short rfl
  | unit hunit =>
    obtain ⟨_, _, _, _, rfl, hcode⟩ := unitWrittenAs_iff.mp hunit
    -- no character is half of a pair
    have hvalid : c.toNat < 0xD800 ∨ 0xDFFF < c.toNat ∧ c.toNat < 0x110000 := c.valid
    have hspelling := CharSpelling.unit hcode
      (by rw [← Bool.not_eq_true, isLowSurrogate_iff]; omega)
      (by rw [← Bool.not_eq_true, isHighSurrogate_iff]; omega)
    rwa [Char.ofNat_toNat] at hspelling
  | pair hlarge hhigh hlow =>
    obtain ⟨_, _, _, _, rfl, hhighcode⟩ := unitWrittenAs_iff.mp hhigh
    obtain ⟨_, _, _, _, rfl, hlowcode⟩ := unitWrittenAs_iff.mp hlow
    have hvalid : c.toNat < 0xD800 ∨ 0xDFFF < c.toNat ∧ c.toNat < 0x110000 := c.valid
    have hspelling := CharSpelling.pair hhighcode (isHighSurrogate_iff.mpr (by omega)) hlowcode
      (isLowSurrogate_iff.mpr (by omega))
    have hpair : charOfPair (0xD800 + (c.toNat - 0x10000) / 0x400)
        (0xDC00 + (c.toNat - 0x10000) % 0x400) = c := by
      have hsum : 0x10000 + (0xD800 + (c.toNat - 0x10000) / 0x400 - 0xD800) * 0x400 +
          (0xDC00 + (c.toNat - 0x10000) % 0x400 - 0xDC00) = c.toNat := by omega
      rw [charOfPair, hsum, Char.ofNat_toNat]
    rwa [hpair] at hspelling

lemma textSpelling_of_charsWrittenAs {text cs : List Char} (h : CharsWrittenAs text cs) :
    TextSpelling text cs := by
  induction h with
  | nil => exact .nil
  | cons hc _ ih => exact .cons (charSpelling_of_charWrittenAs hc) ih

/-- A scan goes on behind whatever it has read. -/
lemma scanText_error_of_textSpelling {text cs : List Char} (h : TextSpelling text cs)
    {rest : List Char} {fault : Fault} (hrest : scanText none rest = .error fault) :
    scanText none (cs ++ rest) = .error fault := by
  induction h with
  | nil => exact hrest
  | cons hc _ ih =>
    rw [List.append_assoc, scanText_of_charSpelling hc, ih]
    rfl

/-- What is read behind the first half of a pair is the other half. -/
lemma exists_unit_of_scanText {high : Nat} {cs text rest : List Char}
    (h : scanText (some high) cs = .ok (text, rest)) :
    ∃ low unit, (0xDC00 ≤ low ∧ low < 0xE000) ∧ UnitWrittenAs low unit ∧ unit <+: cs := by
  unfold scanText at h
  split at h
  all_goals try contradiction
  next a b c d tail _ =>
    split at h
    next => contradiction
    next low hlow =>
      split at h
      next hsurrogate =>
        exact ⟨low, ['\\', 'u', a, b, c, d], isLowSurrogate_iff.mp hsurrogate,
          unitWrittenAs_iff.mpr ⟨a, b, c, d, rfl, hlow⟩, ⟨tail, rfl⟩⟩
      next => contradiction

lemma UnitWrittenAs.quote_notMem {unit : Nat} {cs : List Char} (h : UnitWrittenAs unit cs) :
    '"' ∉ cs := by
  have hdigit : ∀ n, ¬IsHexDigit n '"' := by
    intro n hn
    have hvalue := hexValue?_of_isHexDigit hn
    contradiction
  obtain ⟨h₁, h₂, h₃, h₄⟩ := h
  simp only [List.mem_cons, List.not_mem_nil, or_false]
  rintro (h | h | rfl | rfl | rfl | rfl)
  · contradiction
  · contradiction
  · exact hdigit _ h₁
  · exact hdigit _ h₂
  · exact hdigit _ h₃
  · exact hdigit _ h₄

lemma exists_scanText_error_of_unpaired {cs : List Char} (h : Unpaired cs) (rest : List Char) :
    ∃ fault, scanText none (cs ++ '"' :: rest) = .error fault := by
  cases h with
  | low h hunit =>
    obtain ⟨a, b, c, d, rfl, hcode⟩ := unitWrittenAs_iff.mp h
    exact ⟨.loneSurrogate, by
      simp only [List.cons_append, scanText, hcode, isLowSurrogate_iff.mpr hunit, if_true]⟩
  | @high unit _ tail h hunit hrest =>
    obtain ⟨a, b, c, d, rfl, hcode⟩ := unitWrittenAs_iff.mp h
    have hhigh := isHighSurrogate_iff.mpr hunit
    have hstep : scanText none (['\\', 'u', a, b, c, d] ++ tail ++ '"' :: rest) =
        scanText (some unit) (tail ++ '"' :: rest) := by
      simp only [List.cons_append, List.nil_append, scanText, hcode, hhigh,
        not_isLowSurrogate_of_isHighSurrogate hhigh]
      rfl
    cases hscan : scanText (some unit) (tail ++ '"' :: rest) with
    | error fault => exact ⟨fault, hstep.trans hscan⟩
    | ok result =>
      obtain ⟨low, unit', hlow, hunit', hprefix⟩ := exists_unit_of_scanText hscan
      exact absurd (Text.prefix_of_notMem hprefix hunit'.quote_notMem) (hrest low unit' hlow hunit')

lemma yields_quoted {value : Option String} {cs : List Char} (h : QuotedAs value cs) :
    Yields cs [value.map .text] := by
  cases h with
  | text h => exact yields_of_spelledAs (.text (textSpelling_of_charsWrittenAs h))
  | @unpaired _ before tail hbefore htail =>
    apply yields_of_broken
    intro rest _
    obtain ⟨fault, hfault⟩ := exists_scanText_error_of_unpaired htail rest
    have hscan := scanText_error_of_textSpelling (textSpelling_of_charsWrittenAs hbefore) hfault
    refine ⟨.text, fault, '"', before ++ (tail ++ '"' :: rest), by simp, rfl, ?_⟩
    simp only [Token.scanFrom, hscan, Token.orBroken]

/-! ### Numbers -/

lemma Digits.isDigit {ds : List Char} (h : Digits ds) : ∀ c ∈ ds, c.isDigit = true := by
  have hall : ∀ c ∈ ['0', '1', '2', '3', '4', '5', '6', '7', '8', '9'], c.isDigit = true := by
    simp only [List.forall_mem_cons, List.not_mem_nil, false_imp_iff, implies_true, and_true]
    decide
  exact fun c hc => hall c (h.2 c hc)

/-- Digits start with no sign. -/
lemma Digits.append_ne_cons {ds : List Char} (h : Digits ds) {c : Char} (hc : c.isDigit = false)
    (rest tail : List Char) : ds ++ rest ≠ c :: tail := by
  intro heq
  cases ds with
  | nil => exact h.1 rfl
  | cons d ds =>
    obtain rfl := (List.cons.inj heq).1
    rw [h.isDigit d List.mem_cons_self] at hc
    contradiction

lemma scanFraction_append {fraction cs : List Char} (h : FractionWrittenAs fraction cs)
    {rest : List Char} (hrest : ∀ c ∈ rest.head?, c.isDigit = false ∧ c ≠ '.') :
    scanFraction (cs ++ rest) = .ok (fraction, rest) := by
  cases h with
  | none =>
    rw [List.nil_append]
    unfold scanFraction
    split
    next => exact absurd rfl (hrest '.' rfl).2
    next => rfl
  | digits hds =>
    rw [List.cons_append, scanFraction]
    exact scanDigits_append hds.1 hds.isDigit fun c hc => (hrest c hc).1

lemma scanExponent_append {exponent : Option (Bool × List Char)} {cs : List Char}
    (h : ExponentWrittenAs exponent cs) {rest : List Char} (hrest : EndsNumber rest) :
    scanExponent (cs ++ rest) = .ok (exponent, rest) := by
  cases h with
  | none => exact scanExponent_of_ends hrest
  | @digits negative mark sign ds hmark hsign hds =>
    have hscan := scanDigits_append hds.1 hds.isDigit fun c hc => (hrest c hc).1
    have hmark : mark = 'e' ∨ mark = 'E' := by simpa using hmark
    cases negative with
    | true =>
      obtain rfl : sign = ['-'] := by simpa using hsign
      simp only [List.cons_append, List.nil_append, scanExponent, if_pos hmark, hscan]
      rfl
    | false =>
      obtain rfl | rfl : sign = [] ∨ sign = ['+'] := by simpa using hsign
      · rw [List.cons_append, List.nil_append, scanExponent, if_pos hmark, hscan]
        · rfl
        all_goals exact fun tail => hds.append_ne_cons rfl rest tail
      · simp only [List.cons_append, List.nil_append, scanExponent, if_pos hmark, hscan]
        rfl

/-- Neither digits nor a fraction go on where an exponent may stand. -/
lemma ExponentWrittenAs.ends {exponent : Option (Bool × List Char)} {cs : List Char}
    (h : ExponentWrittenAs exponent cs) {rest : List Char} (hrest : EndsNumber rest) :
    ∀ c ∈ (cs ++ rest).head?, c.isDigit = false ∧ c ≠ '.' := by
  cases h with
  | none => exact fun c hc => ⟨(hrest c hc).1, (hrest c hc).2.1⟩
  | digits hmark =>
    have hall : ∀ c ∈ ['e', 'E'], c.isDigit = false ∧ c ≠ '.' := by
      simp only [List.forall_mem_cons, List.not_mem_nil, false_imp_iff, implies_true, and_true]
      decide
    rintro c ⟨⟩
    exact hall _ hmark

/-- A literal is taken off the front of what does not go on with it. -/
lemma Literal.scan_append {l : Literal} {cs : List Char} (h : l.WrittenAs cs) {rest : List Char}
    (hrest : EndsNumber rest) : Literal.scan (cs ++ rest) = .ok (l, rest) := by
  cases h with
  | @number negative whole fraction cs cs' exponent hwhole hzero hfraction hexponent =>
    have hends := hexponent.ends hrest
    have hbehind : ∀ c ∈ (cs ++ (cs' ++ rest)).head?, c.isDigit = false := by
      cases hfraction with
      | none => exact fun c hc => (hends c hc).1
      | digits =>
        rintro c ⟨⟩
        rfl
    have hsingle : ∀ c ds, whole ≠ '0' :: c :: ds := by
      rintro c ds rfl
      simpa using hzero rfl
    have hunsigned : scanUnsigned negative (whole ++ (cs ++ (cs' ++ rest))) =
        .ok (⟨negative, whole, fraction, exponent⟩, rest) := by
      rw [scanUnsigned, scanWhole_append hwhole.1 hwhole.isDigit hsingle hbehind]
      simp only [bind, Except.bind, scanFraction_append hfraction hends,
        scanExponent_append hexponent hrest]
      rfl
    simp only [List.append_assoc]
    cases negative with
    | true => exact hunsigned
    | false =>
      rw [if_neg (by simp), List.nil_append, scan, hunsigned]
      exact fun tail => hwhole.append_ne_cons rfl _ tail

/-- The token that is due for a number. -/
def Literal.token (l : Literal) : Option Token :=
  match l.value with
  | .ok n => some (.number n)
  | .error _ => none

/-- A number starts with a minus sign or a digit. -/
lemma Literal.exists_cons {l : Literal} {cs : List Char} (h : l.WrittenAs cs) :
    ∃ c tail, cs = c :: tail ∧ (c = '-' ∨ c.isDigit = true) := by
  cases h with
  | @number negative whole _ _ _ _ hwhole =>
    cases negative with
    | true => exact ⟨'-', _, rfl, .inl rfl⟩
    | false =>
      cases whole with
      | nil => exact absurd rfl hwhole.1
      | cons d whole => exact ⟨d, _, rfl, .inr (hwhole.isDigit d List.mem_cons_self)⟩

lemma yields_number {l : Literal} {cs : List Char} (h : l.WrittenAs cs) :
    Yields cs [l.token] := by
  obtain ⟨c, tail, rfl, hc⟩ := Literal.exists_cons h
  have hscan : ∀ rest, EndsNumber rest → Number.scan (c :: (tail ++ rest)) =
      l.value >>= fun n => .ok (n, rest) := by
    intro rest hrest
    have hliteral := Literal.scan_append h hrest
    rw [List.cons_append] at hliteral
    rw [Number.scan, hliteral]
    rfl
  rw [Literal.token]
  cases hvalue : l.value with
  | ok n =>
    apply yields_of_cutFrom
    intro rest hrest
    refine ⟨c, tail ++ rest, rfl, isGap_of_digit hc, ?_⟩
    rw [scanFrom_of_digit hc, hscan rest hrest, hvalue]
    rfl
  | error fault =>
    apply yields_of_broken
    intro rest hrest
    refine ⟨.other, fault, c, tail ++ rest, rfl, isGap_of_digit hc, ?_⟩
    rw [scanFrom_of_digit hc, hscan rest hrest, hvalue]
    rfl

/-! ### Values -/

mutual

def Tree.tokens : Tree → List (Option Token)
  | .null => [some .null]
  | .boolean value => [some (.boolean value)]
  | .number literal => [literal.token]
  | .text value => [value.map .text]
  | .list [] => [some .openBracket, some .closeBracket]
  | .list (item :: items) => some .openBracket :: (item.tokens ++ treesAfterItem items)
  | .object [] => [some .openBrace, some .closeBrace]
  | .object ((key, value) :: members) =>
    some .openBrace :: key.map .text :: some .colon ::
      (value.tokens ++ treesAfterMember members)

/-- The tokens of a list that come after one of its items. -/
def treesAfterItem : List Tree → List (Option Token)
  | [] => [some .closeBracket]
  | item :: items => some .comma :: (item.tokens ++ treesAfterItem items)

/-- The tokens of an object that come after one of its members. -/
def treesAfterMember : List (Option String × Tree) → List (Option Token)
  | [] => [some .closeBrace]
  | (key, value) :: members =>
    some .comma :: key.map .text :: some .colon :: (value.tokens ++ treesAfterMember members)

end

/-- A token that is one character needs no care for what comes behind it. -/
lemma Yields.after_sign {c : Char} {t : Token} (ht : t.SpelledAs [c]) (hnumber : ∀ n, t ≠ .number n)
    {cs : List Char} {us : List (Option Token)} (h : Yields cs us) :
    Yields (c :: cs) (some t :: us) := by
  intro rest ws hrest hws
  have hcut : t.CutFrom (c :: (cs ++ rest)) (cs ++ rest) :=
    ht.cutFrom fun n hn => absurd hn (hnumber n)
  rw [List.cons_append, List.cons_append, ofChars_of_cutFrom hcut]
  exact (h rest ws hrest hws).token

lemma yields_items (item : Tree × Placed) {items : List (Tree × Placed)}
    (h : ∀ i ∈ item :: items, Yields i.2.chars i.1.tokens) :
    Yields ([','].intercalate ((item :: items).map (·.2.text)) ++ [']'])
      (item.1.tokens ++ treesAfterItem (items.map (·.1))) := by
  have hitem := yields_placed (h item (by simp))
  induction items generalizing item with
  | nil =>
    rw [List.map_singleton, List.intercalate_singleton]
    exact hitem.append (yields_of_spelledAs .closeBracket) (stops_cons (by decide) [])
  | cons next items ih =>
    have hnext := h next (by simp)
    have hrest := ih next (fun i hi => h i (List.mem_cons_of_mem _ hi)) (yields_placed hnext)
    -- the comma ends a number, so what the item ends with does not matter
    rw [List.map_cons, List.map_cons, List.intercalate_cons_cons, List.append_assoc,
      List.append_assoc]
    exact hitem.append (hrest.after_sign .comma (by simp)) (stops_cons (by decide) _)

lemma yields_member {m : PlacedMember} (hkey : QuotedAs m.key m.keyChars.chars)
    (hvalue : Yields m.valueChars.chars m.value.tokens) :
    Yields m.text (m.key.map .text :: some .colon :: m.value.tokens) :=
  (yields_placed (yields_quoted hkey)).append
    ((yields_placed hvalue).after_sign .colon (by simp)) (stops_cons (by decide) _)

lemma yields_members (member : PlacedMember) {members : List PlacedMember}
    (hkeys : ∀ m ∈ member :: members, QuotedAs m.key m.keyChars.chars)
    (hvalues : ∀ m ∈ member :: members, Yields m.valueChars.chars m.value.tokens) :
    Yields ([','].intercalate ((member :: members).map (·.text)) ++ ['\x7d'])
      (member.key.map .text :: some .colon :: (member.value.tokens ++
        treesAfterMember (members.map fun m => (m.key, m.value)))) := by
  have hmember := yields_member (hkeys member (by simp)) (hvalues member (by simp))
  induction members generalizing member with
  | nil =>
    rw [List.map_singleton, List.intercalate_singleton]
    exact hmember.append (yields_of_spelledAs .closeBrace) (stops_cons (by decide) [])
  | cons next members ih =>
    have hnext := yields_member (hkeys next (by simp)) (hvalues next (by simp))
    have hrest := ih next (fun m hm => hkeys m (List.mem_cons_of_mem _ hm))
      (fun m hm => hvalues m (List.mem_cons_of_mem _ hm)) hnext
    rw [List.map_cons, List.map_cons, List.intercalate_cons_cons, List.append_assoc,
      List.append_assoc]
    exact hmember.append (hrest.after_sign .comma (by simp)) (stops_cons (by decide) _)

/-- The characters of a value are cut as its tokens. -/
theorem yields_of_writtenAs {tree : Tree} {cs : List Char} (h : tree.WrittenAs cs) :
    Yields cs tree.tokens := by
  induction h with
  | null => exact yields_of_spelledAs .null
  | true => exact yields_of_cutFrom fun _ _ => ⟨'t', _, rfl, rfl, rfl⟩
  | false => exact yields_of_cutFrom fun _ _ => ⟨'f', _, rfl, rfl, rfl⟩
  | number h => exact yields_number h
  | text h => exact yields_quoted h
  | @list gap items _ ih =>
    simp only [List.cons_append, List.append_assoc]
    cases items with
    | nil =>
      have hclose := yields_of_spelledAs .closeBracket
      exact (hclose.after_gap gap).after_sign .openBracket (by simp)
    | cons item items =>
      exact ((yields_items item ih).after_gap gap).after_sign .openBracket (by simp)
  | @object gap members hkeys _ ih =>
    simp only [List.cons_append, List.append_assoc]
    cases members with
    | nil =>
      have hclose := yields_of_spelledAs .closeBrace
      exact (hclose.after_gap gap).after_sign .openBrace (by simp)
    | cons member members =>
      exact ((yields_members member hkeys ih).after_gap gap).after_sign .openBrace (by simp)

/-- A text is cut as the tokens of the tree that it writes. -/
theorem cutAs_of_writtenIn {tree : Tree} {text : String} (h : tree.WrittenIn text) :
    CutAs tree.tokens (Token.ofText text) := by
  obtain ⟨p, hp, htext⟩ := h
  have hyields := yields_placed (yields_of_writtenAs hp) [] [] (by decide)
    (by rw [Token.ofChars]; exact .nil)
  rwa [List.append_nil, List.append_nil, ← htext] at hyields

end MediaSheets.Json
