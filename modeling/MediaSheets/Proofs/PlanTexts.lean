import MediaSheets.CommandLine.Program
import MediaSheets.Proofs.ValueTexts

/-!
# What the text of a plan tells

The text of a JSON value shows where it ends: `Value.stands_out` takes it off whatever stands
behind it, so different values have different texts. Nothing is lost on the way from a plan to its
value either, and the text of a plan gives the plan back.
-/

namespace MediaSheets.Json

/-- Wherever this is written with something behind it that does not go on with a number, nothing
else is. -/
def StandsOut {α : Type} (text : α → List Char) (a : α) : Prop :=
  ∀ (b : α) {rest rest' : List Char}, EndsNumber rest → EndsNumber rest' →
    text a ++ rest = text b ++ rest' → a = b ∧ rest = rest'

/-- Between brackets, entries with a comma in between stand on lines of their own. -/
def blockText {α : Type} (text : α → List Char) (brackets : Char × Char) (depth : Nat) :
    List α → List Char
  | [] => [brackets.1, brackets.2]
  | a :: as =>
    brackets.1 :: (newLine (depth + 1)).toList ++ text a ++
      as.flatMap (fun a => ',' :: (newLine (depth + 1)).toList ++ text a) ++
      (newLine depth).toList ++ [brackets.2]

/-- A member of an object as it is written at some depth. -/
def memberText (depth : Nat) (m : String × Value) : List Char :=
  (quotedText m.1).toList ++ ':' :: ' ' :: (m.2.prettyAt depth).toList

/-! ### Texts and numbers -/

/-- What a scan takes off the front of every text cannot be taken for anything else. -/
lemma standsOut_of_scan {α β : Type} {text : α → List Char} {value : α → β}
    (scan : List Char → Except Fault (β × List Char)) (hvalue : Function.Injective value)
    (hscan : ∀ (a : α) {rest : List Char}, EndsNumber rest →
      scan (text a ++ rest) = .ok (value a, rest)) (a : α) : StandsOut text a := by
  intro b rest rest' hrest hrest' h
  have ha := hscan a hrest
  rw [h, hscan b hrest'] at ha
  obtain ⟨hvalues, hrests⟩ := Prod.mk.inj (Except.ok.inj ha)
  exact ⟨(hvalue hvalues).symm, hrests.symm⟩

lemma quotedText_stands_out (s : String) : StandsOut (fun s => (quotedText s).toList) s := by
  have hchars : Function.Injective String.toList := fun _ _ h => String.toList_inj.mp h
  have hscan : ∀ (s : String) {rest : List Char}, EndsNumber rest →
      scanText none ((quotedText s).toList ++ rest).tail = .ok (s.toList, rest) := by
    intro s rest _
    simpa [toList_quotedText] using scanText_of_textSpelling (textSpelling_escaped s.toList) rest
  exact standsOut_of_scan (fun cs => scanText none cs.tail) hchars hscan s

lemma Literal.ofInt_injective : Function.Injective ofInt := by
  intro m n h
  obtain ⟨hsign, hdigits, -, -⟩ := Literal.mk.inj h
  have habs := congrArg natOfDigits hdigits
  rw [natOfDigits_toDigits, natOfDigits_toDigits] at habs
  rw [decide_eq_decide] at hsign
  omega

lemma decimal_stands_out (n : Int) : StandsOut (fun n => (decimal n).toList) n :=
  standsOut_of_scan Literal.scan Literal.ofInt_injective
    (fun n _ hrest => Literal.scan_decimal n hrest) n

/-! ### Entries between brackets -/

lemma endsNumber_comma (rest : List Char) : EndsNumber (',' :: rest) :=
  endsNumber_cons (by decide) rest

lemma endsNumber_newLine (depth : Nat) (rest : List Char) :
    EndsNumber ((newLine depth).toList ++ rest) := by
  rw [newLine, String.toList_append]
  exact endsNumber_cons (by decide) _

lemma newLine_ne_cons {c : Char} (hc : c ≠ '\n') (depth : Nat) (rest cs : List Char) :
    (newLine depth).toList ++ rest ≠ c :: cs := by
  intro h
  rw [newLine, String.toList_append] at h
  exact hc (List.cons.inj h).1.symm

section Entries

variable {α : Type} {text : α → List Char}

/-- Behind an entry comes a comma, or the line of the closing bracket. -/
lemma endsNumber_entries (as : List α) (start : List Char) (depth : Nat) (rest : List Char) :
    EndsNumber (as.flatMap (fun a => ',' :: start ++ text a) ++
      ((newLine depth).toList ++ rest)) := by
  cases as with
  | nil => exact endsNumber_newLine depth rest
  | cons a as => exact endsNumber_comma _

lemma entries_inj {as bs : List α} (has : ∀ a ∈ as, StandsOut text a) {start : List Char}
    {depth : Nat} {rest rest' : List Char}
    (h : as.flatMap (fun a => ',' :: start ++ text a) ++ ((newLine depth).toList ++ rest) =
      bs.flatMap (fun b => ',' :: start ++ text b) ++ ((newLine depth).toList ++ rest')) :
    as = bs ∧ rest = rest' := by
  induction as generalizing bs with
  | nil =>
    cases bs with
    | nil => exact ⟨rfl, List.append_cancel_left h⟩
    | cons b bs => exact absurd h (newLine_ne_cons (by decide) depth rest _)
  | cons a as ih =>
    cases bs with
    | nil => exact absurd h.symm (newLine_ne_cons (by decide) depth rest' _)
    | cons b bs =>
      rw [List.forall_mem_cons] at has
      simp only [List.flatMap_cons, List.cons_append, List.append_assoc] at h
      have hentry := List.append_cancel_left (List.cons.inj h).2
      obtain ⟨rfl, hrest⟩ :=
        has.1 b (endsNumber_entries as start depth rest) (endsNumber_entries bs start depth rest')
          (by simpa using hentry)
      obtain ⟨rfl, hrests⟩ := ih has.2 (by simpa using hrest)
      exact ⟨rfl, hrests⟩

lemma blockText_inj {as bs : List α} (has : ∀ a ∈ as, StandsOut text a) {brackets : Char × Char}
    (hclosing : brackets.2 ≠ '\n') {depth : Nat} {rest rest' : List Char}
    (h : blockText text brackets depth as ++ rest = blockText text brackets depth bs ++ rest') :
    as = bs ∧ rest = rest' := by
  cases as with
  | nil =>
    cases bs with
    | nil => exact ⟨rfl, List.append_cancel_left h⟩
    | cons b bs =>
      simp only [blockText, List.cons_append, List.append_assoc] at h
      exact absurd (List.cons.inj h).2.symm (newLine_ne_cons hclosing _ _ _)
  | cons a as =>
    cases bs with
    | nil =>
      simp only [blockText, List.cons_append, List.append_assoc] at h
      exact absurd (List.cons.inj h).2 (newLine_ne_cons hclosing _ _ _)
    | cons b bs =>
      rw [List.forall_mem_cons] at has
      simp only [blockText, List.cons_append, List.append_assoc] at h
      have hentry := List.append_cancel_left (List.cons.inj h).2
      obtain ⟨rfl, hrest⟩ := has.1 b (endsNumber_entries as _ depth _)
        (endsNumber_entries bs _ depth _) (by simpa using hentry)
      obtain ⟨rfl, hclose⟩ := entries_inj has.2 (by simpa using hrest)
      exact ⟨rfl, (List.cons.inj hclose).2⟩

end Entries

/-! ### Values -/

lemma toList_prettyItems (depth : Nat) (items : List Value) :
    (prettyItems depth items).toList =
      items.flatMap fun v => ',' :: (newLine depth).toList ++ (v.prettyAt depth).toList := by
  induction items with
  | nil => rfl
  | cons item items ih => simp [prettyItems, ih]

lemma toList_prettyMembers (depth : Nat) (members : List (String × Value)) :
    (prettyMembers depth members).toList =
      members.flatMap fun m => ',' :: (newLine depth).toList ++ memberText depth m := by
  induction members with
  | nil => rfl
  | cons m members ih => simp [prettyMembers, memberText, ih]

lemma toList_prettyAt_list (depth : Nat) (items : List Value) :
    ((Value.list items).prettyAt depth).toList =
      blockText (fun v => (v.prettyAt (depth + 1)).toList) ('[', ']') depth items := by
  cases items with
  | nil => simp [Value.prettyAt, blockText]
  | cons item items => simp [Value.prettyAt, blockText, toList_prettyItems]

lemma toList_prettyAt_object (depth : Nat) (members : List (String × Value)) :
    ((Value.object members).prettyAt depth).toList =
      blockText (memberText (depth + 1)) ('\x7b', '\x7d') depth members := by
  cases members with
  | nil => simp [Value.prettyAt, blockText]
  | cons m members => simp [Value.prettyAt, blockText, memberText, toList_prettyMembers]

/-- The kind of a value, as its first character shows it. -/
def Value.opening : Value → Char
  | .null => 'n'
  | .integer _ => '0'
  | .text _ => '"'
  | .list _ => '['
  | .object _ => '\x7b'

/-- Integers begin with a sign or with any digit. -/
def openingOf (c : Char) : Char := if c = '-' ∨ c.isDigit = true then '0' else c

lemma Value.opening_prettyAt (v : Value) (depth : Nat) :
    ∃ c cs, (v.prettyAt depth).toList = c :: cs ∧ openingOf c = v.opening := by
  cases v with
  | null =>
    rw [prettyAt]
    exact ⟨'n', _, rfl, by decide⟩
  | integer n =>
    obtain ⟨c, cs, hcs, hc⟩ := exists_decimal_cons n
    rw [prettyAt]
    exact ⟨c, cs, hcs, if_pos hc⟩
  | text s =>
    rw [prettyAt, toList_quotedText]
    exact ⟨'"', _, rfl, if_neg (by decide)⟩
  | list items =>
    rw [toList_prettyAt_list]
    cases items <;> exact ⟨'[', _, rfl, if_neg (by decide)⟩
  | object members =>
    rw [toList_prettyAt_object]
    cases members <;> exact ⟨'\x7b', _, rfl, if_neg (by decide)⟩

lemma Value.opening_eq {v w : Value} {depth : Nat} {rest rest' : List Char}
    (h : (v.prettyAt depth).toList ++ rest = (w.prettyAt depth).toList ++ rest') :
    v.opening = w.opening := by
  obtain ⟨c, cs, hv, hc⟩ := v.opening_prettyAt depth
  obtain ⟨c', cs', hw, hc'⟩ := w.opening_prettyAt depth
  rw [hv, hw] at h
  rw [← hc, ← hc', (List.cons.inj h).1]

/-- The key of a member ends at its quote, and its value where the value does. -/
lemma memberText_stands_out {m : String × Value} {depth : Nat}
    (hm : StandsOut (fun v => (Value.prettyAt depth v).toList) m.2) :
    StandsOut (memberText depth) m := by
  intro m' rest rest' hrest hrest' h
  simp only [memberText, List.append_assoc, List.cons_append] at h
  have hcolon : ∀ cs, EndsNumber (':' :: cs) := endsNumber_cons (by decide)
  obtain ⟨hkey, hvalues⟩ := quotedText_stands_out m.1 m'.1 (hcolon _) (hcolon _) h
  obtain ⟨hvalue, hrests⟩ :=
    hm m'.2 hrest hrest' (List.cons.inj (List.cons.inj hvalues).2).2
  exact ⟨Prod.ext hkey hvalue, hrests⟩

/-- The text of a value ends where it does, whatever stands behind it. -/
theorem Value.stands_out (v : Value) (depth : Nat) :
    StandsOut (fun v => (Value.prettyAt depth v).toList) v := by
  -- the other value is of the same kind, since its text begins like this one's
  induction v using Value.induction generalizing depth with
  | null =>
    intro w rest rest' _ _ h
    cases w with
    | null => exact ⟨rfl, List.append_cancel_left h⟩
    | _ => exact absurd (opening_eq h) (by simp [opening])
  | integer n =>
    intro w rest rest' hrest hrest' h
    cases w with
    | integer m =>
      obtain ⟨rfl, hrests⟩ := decimal_stands_out n m hrest hrest' (by simpa [prettyAt] using h)
      exact ⟨rfl, hrests⟩
    | _ => exact absurd (opening_eq h) (by simp [opening])
  | text s =>
    intro w rest rest' hrest hrest' h
    cases w with
    | text t =>
      obtain ⟨rfl, hrests⟩ := quotedText_stands_out s t hrest hrest' (by simpa [prettyAt] using h)
      exact ⟨rfl, hrests⟩
    | _ => exact absurd (opening_eq h) (by simp [opening])
  | list items ih =>
    intro w rest rest' _ _ h
    cases w with
    | list items' =>
      simp only [toList_prettyAt_list] at h
      obtain ⟨rfl, hrests⟩ := blockText_inj (fun v hv => ih v hv (depth + 1)) (by decide) h
      exact ⟨rfl, hrests⟩
    | _ => exact absurd (opening_eq h) (by simp [opening])
  | object members ih =>
    intro w rest rest' _ _ h
    cases w with
    | object members' =>
      simp only [toList_prettyAt_object] at h
      obtain ⟨rfl, hrests⟩ :=
        blockText_inj (fun m hm => memberText_stands_out (ih m hm (depth + 1))) (by decide) h
      exact ⟨rfl, hrests⟩
    | _ => exact absurd (opening_eq h) (by simp [opening])

theorem Value.pretty_injective : Function.Injective pretty := by
  intro v w h
  have hends : EndsNumber [] := by decide
  have hlists : (v.prettyAt 0).toList ++ [] = (w.prettyAt 0).toList ++ [] := by
    rw [← pretty, ← pretty, h]
  exact (v.stands_out 0 w hends hends hlists).1

end MediaSheets.Json

namespace MediaSheets

open Json (Value)

/-! ### Plans -/

lemma WidthBound.toJson_injective : Function.Injective toJson := by
  intro a b h
  cases a <;> cases b <;> simp_all [toJson, UInt32.toNat_inj]

lemma Media.toJson_injective : Function.Injective toJson := by
  intro a b h
  cases a with
  | hiDpi => cases b <;> simp_all [toJson]
  | width bound =>
    cases b with
    | width bound' => simpa [toJson, WidthBound.toJson_injective.eq_iff] using h
    | _ => simp [toJson] at h
  | widthHiDpi bound =>
    cases b with
    | widthHiDpi bound' => simpa [toJson, WidthBound.toJson_injective.eq_iff] using h
    | _ => simp [toJson] at h

lemma BlockTarget.toJson_injective : Function.Injective toJson := by
  intro a b h
  cases a <;> cases b <;> simp_all [toJson, Media.toJson_injective.eq_iff, Int32.toInt_inj]

lemma Block.toJson_injective : Function.Injective toJson := by
  intro a b h
  have htexts : Function.Injective (List.map Value.text) :=
    List.map_injective_iff.mpr fun _ _ => Value.text.inj
  obtain ⟨target, body, components, count⟩ := a
  obtain ⟨target', body', components', count'⟩ := b
  simp only [toJson, Value.object.injEq, List.cons.injEq, Prod.mk.injEq, true_and, and_true,
    BlockTarget.toJson_injective.eq_iff, Value.text.injEq, Value.list.injEq, htexts.eq_iff,
    Value.integer.injEq, Int.natCast_inj] at h
  obtain ⟨rfl, rfl, rfl, rfl⟩ := h
  rfl

lemma planText_injective : Function.Injective planText := by
  intro plan plan' h
  have hblocks := Value.list.inj (Value.pretty_injective h)
  exact List.map_injective_iff.mpr Block.toJson_injective hblocks

/-- What is shown of a plan as JSON tells the whole plan: the order of its blocks and all that they
have, whatever characters stand in their texts. -/
theorem plan_read_from_text (mode mode' : Mode) (plan plan' : List Block) :
    CommandLine.showPlan mode true plan = CommandLine.showPlan mode' true plan' ↔
      plan = plan' := by
  constructor
  · intro h
    simp only [CommandLine.showPlan, if_true] at h
    have hlists := congrArg String.toList h
    rw [String.toList_append, String.toList_append] at hlists
    exact planText_injective (String.toList_inj.mp (List.append_cancel_right hlists))
  · rintro rfl
    rfl

end MediaSheets
