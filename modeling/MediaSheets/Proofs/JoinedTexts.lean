import Mathlib.Algebra.GroupWithZero.Nat
import Mathlib.Data.List.Infix

/-!
# Joined texts

What is found in a text that was joined from parts. `Text.pieces` cuts a text at a separator,
and it gives the parts back if they do not have the character that the separator begins with.
`Text.occurrences` counts the places where a pattern stands. A separator without a character of
the pattern keeps the parts apart: whatever they are, no such place reaches from one into the
next. Where a pattern begins with a character that it has nowhere else, a text is cut in one way
at the first place of it.
-/

namespace MediaSheets.Text

open String.Slice.Pattern.Model

/-- The pieces of a text between the places where a separator stands. -/
def pieces (separator text : String) : List String :=
  (text.split separator).toList.map String.Slice.copy

/-- The number of places where a pattern stands in a text. -/
def occurrences (pattern text : List Char) : Nat :=
  text.tails.countP (pattern <+: ·)

/-- The first character of a pattern stands nowhere else in it. -/
def StartsOnce (pattern : List Char) : Prop := ∃ c tail, pattern = c :: tail ∧ c ∉ tail

lemma mem_toList_intercalate {separator : String} {parts : List String} {c : Char}
    (h : c ∈ (separator.intercalate parts).toList) :
    c ∈ separator.toList ∨ ∃ part ∈ parts, c ∈ part.toList := by
  induction parts with
  | nil =>
    rw [String.intercalate_nil] at h
    contradiction
  | cons part parts ih =>
    cases parts with
    | nil =>
      rw [String.intercalate_singleton] at h
      exact .inr ⟨part, List.mem_singleton_self part, h⟩
    | cons next parts =>
      rw [String.intercalate_cons_cons, String.toList_append, String.toList_append,
        List.mem_append, List.mem_append] at h
      rcases h with (hpart | hseparator) | hrest
      · exact .inr ⟨part, List.mem_cons_self, hpart⟩
      · exact .inl hseparator
      · rcases ih hrest with hseparator | ⟨other, hother, hc⟩
        · exact .inl hseparator
        · exact .inr ⟨other, List.mem_cons_of_mem part hother, hc⟩

/-! ### Cutting -/

section Pieces

variable {separator : String} {c : Char} {s : String.Slice} {start stop : s.Pos}
  {before part after : String}

lemma copy_subslice (hstart : start.Splits before (part ++ after))
    (hstop : stop.Splits (before ++ part) after) (hle : start ≤ stop) :
    (s.subslice start stop hle).toSlice.copy = part := by
  obtain ⟨_, h⟩ := String.Slice.copy_slice_eq_iff_splits.mpr ⟨before, after, hstart, hstop⟩
  rw [String.Slice.toSlice_subslice]
  exact h

/-- A separator stands neither at the start of a part without its first character nor within. -/
lemma not_matchesAt_of_notMem (hc : separator.toList.head? = some c)
    (hstart : start.Splits before (part ++ after)) (hstop : stop.Splits (before ++ part) after)
    (hpart : c ∉ part.toList) {p : s.Pos} (hle : start ≤ p) (hlt : p < stop) :
    ¬MatchesAt separator p := by
  rw [ForwardStringSearcher.matchesAt_iff_splits]
  rintro ⟨t, u, hp⟩
  obtain ⟨gone, rfl, -⟩ := (hstart.le_iff_exists_eq_append hp).mp hle
  obtain ⟨left, hne, hleft, hrest⟩ := (hp.lt_iff_exists_eq_append hstop).mp hlt
  have hcut : part = gone ++ left := by
    rw [String.append_assoc] at hleft
    exact (String.append_right_inj before).mp hleft
  have hleft' : left.toList ≠ [] := by simpa using hne
  have hseparator : separator.toList ≠ [] := by
    intro hnil
    rw [hnil] at hc
    contradiction
  -- what is left of the part and the separator begin at the same place
  have hhead : left.toList.head? = some c := by
    have hheads := congrArg (fun text => text.toList.head?) hrest
    simp only [String.toList_append, List.head?_append_of_ne_nil _ hleft',
      List.head?_append_of_ne_nil _ hseparator] at hheads
    rw [← hheads, hc]
  apply hpart
  rw [hcut, String.toList_append]
  exact List.mem_append_right _ (List.mem_of_head? hhead)

lemma map_copy_split [StrictPatternModel separator] (hc : separator.toList.head? = some c)
    {parts : List String} (hne : parts ≠ []) (hparts : ∀ part ∈ parts, c ∉ part.toList)
    (hstart : start.Splits before (separator.intercalate parts)) :
    (String.Slice.Pattern.Model.split separator start start (Std.le_refl start)).map
      (fun piece => piece.toSlice.copy) = parts := by
  induction parts generalizing start before with
  | nil => contradiction
  | cons part parts ih =>
    have hpart : c ∉ part.toList := hparts part List.mem_cons_self
    cases parts with
    | nil =>
      rw [String.intercalate_singleton] at hstart
      have hend : s.endPos.Splits (before ++ part) "" := by
        rw [← hstart.eq_append]
        exact s.splits_endPos
      have hlast : start.Splits before (part ++ "") := by rwa [String.append_empty]
      have hnone : ∀ p, start ≤ p → p < s.endPos → ¬MatchesAt separator p := fun _ hle hlt =>
        not_matchesAt_of_notMem hc hlast hend hpart hle hlt
      rw [split_eq_of_not_matchesAt s.endPos (by simp) hnone, split_endPos, List.map_singleton,
        copy_subslice hlast hend]
    | cons next parts =>
      rw [String.intercalate_cons_cons, String.append_assoc] at hstart
      have hstop := hstart.splits_rotateRight
      have hnext := hstop.splits_rotateRight
      have hnone : ∀ p, start ≤ p → p < hstart.rotateRight → ¬MatchesAt separator p :=
        fun _ hle hlt => not_matchesAt_of_notMem hc hstart hstop hpart hle hlt
      have hmatch : IsLongestMatchAt separator hstart.rotateRight hstop.rotateRight :=
        ForwardStringSearcher.isLongestMatchAt_iff_splits.mpr ⟨_, _, hstop, hnext⟩
      have hle : start ≤ hstart.rotateRight :=
        (hstart.le_iff_exists_eq_append hstop).mpr ⟨part, rfl, rfl⟩
      have hrest : ∀ part ∈ next :: parts, c ∉ part.toList :=
        fun other hother => hparts other (List.mem_cons_of_mem part hother)
      rw [split_eq_of_not_matchesAt hstart.rotateRight hle hnone,
        split_eq_of_isLongestMatchAt hmatch, List.map_cons, ih (by simp) hrest hnext,
        copy_subslice hstart hstop]

/-- Cutting a joined text at its separator gives the parts back. -/
theorem pieces_intercalate (hc : separator.toList.head? = some c) {parts : List String}
    (hne : parts ≠ []) (hparts : ∀ part ∈ parts, c ∉ part.toList) :
    pieces separator (separator.intercalate parts) = parts := by
  have hseparator : separator ≠ "" := by
    rintro rfl
    contradiction
  have hstrict := ForwardStringSearcher.strictPatternModel hseparator
  have hlawful := ForwardStringSearcher.lawfulToForwardSearcherModel hseparator
  rw [pieces, String.split_eq_split_toSlice, String.Slice.toList_split_eq_splitToSubslice,
    String.Slice.Pattern.toList_splitToSubslice_eq_modelSplit, List.map_map]
  have hstart : (separator.intercalate parts).toSlice.startPos.Splits ""
      (separator.intercalate parts) := by simp
  exact map_copy_split hc hne hparts hstart

end Pieces

/-! ### Counting -/

section Occurrences

variable {pattern : List Char} {c : Char}

lemma occurrences_nil (hpattern : pattern ≠ []) : occurrences pattern [] = 0 := by
  simp [occurrences, hpattern]

lemma occurrences_cons (pattern : List Char) (c : Char) (text : List Char) :
    occurrences pattern (c :: text) =
      occurrences pattern text + if pattern <+: c :: text then 1 else 0 := by
  simp [occurrences, List.countP_cons]

/-- A pattern without some character stands in front of that character or not at all. -/
lemma prefix_of_notMem {rest text : List Char} (h : pattern <+: text ++ c :: rest)
    (hc : c ∉ pattern) : pattern <+: text := by
  rcases List.prefix_or_prefix_of_prefix h (List.prefix_append text (c :: rest)) with
    hpattern | ⟨l, rfl⟩
  · exact hpattern
  · cases l with
    | nil => simp
    | cons x l =>
      rw [List.prefix_append_right_inj, List.cons_prefix_cons] at h
      exact absurd (by simp [h.1]) hc

/-- No place of a pattern reaches across a character that the pattern does not have. -/
lemma occurrences_append_cons (hpattern : pattern ≠ []) (hc : c ∉ pattern)
    (text rest : List Char) :
    occurrences pattern (text ++ c :: rest) =
      occurrences pattern text + occurrences pattern rest := by
  induction text with
  | nil =>
    have hnone : ¬pattern <+: c :: rest := by
      intro h
      have hnil : pattern <+: [] := prefix_of_notMem h hc
      exact hpattern (List.prefix_nil.mp hnil)
    rw [List.nil_append, occurrences_cons, if_neg hnone, occurrences_nil hpattern]
    omega
  | cons x text ih =>
    have hfront : pattern <+: (x :: text) ++ c :: rest ↔ pattern <+: x :: text :=
      ⟨fun h => prefix_of_notMem h hc, fun h => h.trans (List.prefix_append _ _)⟩
    rw [List.cons_append] at hfront
    rw [List.cons_append, occurrences_cons, occurrences_cons, ih, if_congr hfront rfl rfl]
    omega

/-- A pattern stands nowhere in a text without one of its characters. -/
lemma occurrences_of_notMem {text : List Char} (hc : c ∈ pattern) (htext : c ∉ text) :
    occurrences pattern text = 0 := by
  rw [occurrences, List.countP_eq_zero]
  intro rest hrest h
  exact htext ((List.mem_tails _ _).mp hrest |>.subset ((of_decide_eq_true h).subset hc))

/-- Parts that are kept apart by a separator have nothing to do with each other. -/
lemma occurrences_append_append {separator : List Char} (hpattern : pattern ≠ [])
    (hne : separator ≠ []) (hseparator : ∀ c ∈ separator, c ∉ pattern) (text rest : List Char) :
    occurrences pattern (text ++ separator ++ rest) =
      occurrences pattern text + occurrences pattern rest := by
  induction separator generalizing text with
  | nil => contradiction
  | cons c separator ih =>
    have hc := hseparator c List.mem_cons_self
    rw [List.append_assoc, List.cons_append, occurrences_append_cons hpattern hc]
    cases separator with
    | nil => rfl
    | cons next separator =>
      have hnext := ih (by simp) (fun x hx => hseparator x (List.mem_cons_of_mem c hx)) []
      rw [List.nil_append, occurrences_nil hpattern, Nat.zero_add] at hnext
      rw [hnext]

/-- A pattern stands in a joined text where it stands in the parts, and nowhere else. -/
theorem occurrences_intercalate {separator : String} (hpattern : pattern ≠ [])
    (hne : separator ≠ "") (hseparator : ∀ c ∈ separator.toList, c ∉ pattern)
    (parts : List String) :
    occurrences pattern (separator.intercalate parts).toList =
      (parts.map fun part => occurrences pattern part.toList).sum := by
  have hne' : separator.toList ≠ [] := by simpa using hne
  induction parts with
  | nil => exact occurrences_nil hpattern
  | cons part parts ih =>
    cases parts with
    | nil => simp
    | cons next parts =>
      rw [String.intercalate_cons_cons, String.toList_append, String.toList_append,
        occurrences_append_append hpattern hne' hseparator, ih]
      rfl

lemma occurrences_eq_zero_iff {text : List Char} :
    occurrences pattern text = 0 ↔ ¬pattern <:+: text := by
  simp only [occurrences, List.countP_eq_zero, List.mem_tails, decide_eq_true_eq,
    List.infix_iff_prefix_suffix, not_exists, not_and]
  exact ⟨fun h rest hprefix hsuffix => h rest hsuffix hprefix,
    fun h rest hsuffix hprefix => h rest hprefix hsuffix⟩

end Occurrences

/-! ### Texts without a pattern -/

section Parts

variable {pattern text text' rest rest' : List Char}

/-- A pattern does not begin in the middle of another place of it. -/
lemma prefix_of_append_eq {c x : Char} {tail : List Char} (hc : c ∉ tail)
    (h : c :: tail ++ rest = x :: text ++ c :: tail ++ rest') : c :: tail <+: x :: text := by
  rw [List.append_assoc] at h
  obtain ⟨hhead, htail⟩ := List.cons.inj h
  have hprefix : tail <+: text ++ c :: (tail ++ rest') := ⟨rest, htail⟩
  rw [hhead]
  exact (List.prefix_cons_inj x).mpr (prefix_of_notMem hprefix hc)

/-- What stands in front of the first place of a pattern can be read off a text. -/
lemma append_pattern_inj (hpattern : StartsOnce pattern) (htext : ¬pattern <:+: text)
    (htext' : ¬pattern <:+: text') (h : text ++ pattern ++ rest = text' ++ pattern ++ rest') :
    text = text' ∧ rest = rest' := by
  obtain ⟨c, tail, rfl, hc⟩ := hpattern
  induction text generalizing text' with
  | nil =>
    cases text' with
    | nil => exact ⟨rfl, List.append_cancel_left h⟩
    | cons x text' => exact absurd (prefix_of_append_eq hc h).isInfix htext'
  | cons x text ih =>
    cases text' with
    | nil => exact absurd (prefix_of_append_eq hc h.symm).isInfix htext
    | cons x' text' =>
      obtain ⟨rfl, htails⟩ := List.cons.inj h
      obtain ⟨rfl, hrest⟩ := ih (fun hin => htext (List.infix_cons hin))
        (fun hin => htext' (List.infix_cons hin)) htails
      exact ⟨rfl, hrest⟩

/-- A text without a pattern ends where the pattern begins, if anything follows. -/
lemma append_inj_of_startsWith (hpattern : StartsOnce pattern) (htext : ¬pattern <:+: text)
    (htext' : ¬pattern <:+: text') (hrest : rest = [] ∨ pattern <+: rest)
    (hrest' : rest' = [] ∨ pattern <+: rest') (h : text ++ rest = text' ++ rest') :
    text = text' ∧ rest = rest' := by
  rcases hrest with rfl | ⟨more, rfl⟩
  · rcases hrest' with rfl | ⟨more', rfl⟩
    · exact ⟨List.append_cancel_right h, rfl⟩
    · rw [List.append_nil, ← List.append_assoc] at h
      exact absurd ⟨text', more', h.symm⟩ htext
  · rcases hrest' with rfl | ⟨more', rfl⟩
    · rw [List.append_nil, ← List.append_assoc] at h
      exact absurd ⟨text, more, h⟩ htext'
    · rw [← List.append_assoc, ← List.append_assoc] at h
      obtain ⟨rfl, rfl⟩ := append_pattern_inj hpattern htext htext' h
      exact ⟨rfl, rfl⟩

end Parts

end MediaSheets.Text
