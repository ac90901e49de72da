import MediaSheets.Proofs.MediaRules

/-!
# Stylesheets read back

`Block.outline` is what a stylesheet shows of a block: its condition, if it has one, and its body.
Bodies may hold braces, empty lines and what looks like the end of a wrapper. As long as none of
them has a media rule of its own, the outlines of a plan are read off its stylesheet: each `@media`
begins a block, and the first brace behind it ends the condition.
-/

namespace MediaSheets

/-- The condition around a block, if it has one. -/
def BlockTarget.media? : BlockTarget → Option Media
  | .universal => none
  | .breakpoint _ _ media => some media

def Block.outline (block : Block) : Option Media × String := (block.target.media?, block.body)

/-- Universal rules come first in a plan and in one block, if there are any, and no body has a media
rule. -/
structure Legible (plan : List Block) : Prop where
  universal_first : ∀ block ∈ plan.tail, block.target ≠ .universal
  plain : ∀ block ∈ plan, ¬"@media".toList <:+: block.body.toList

/-- All blocks stand in wrappers, and no body has a media rule. -/
def Wrapped (plan : List Block) : Prop :=
  ∀ block ∈ plan, block.target ≠ .universal ∧ mediaRules block.body = 0

/-- What stands between a block and those behind it. -/
def gapBefore : List Block → String
  | [] => ""
  | _ :: _ => "\n\n"

/-- A wrapper behind its first word. -/
def wrapping (media : Media) (body : String) : String :=
  " " ++ media.predicate ++ " \x7b\n" ++ body ++ "\n\x7d"

/-- The text of a block with some outline. -/
def outlineText : Option Media × String → String
  | (none, body) => body
  | (some media, body) => "@media" ++ wrapping media body

lemma mediaRules_eq_zero_iff {text : String} :
    mediaRules text = 0 ↔ ¬"@media".toList <:+: text.toList :=
  Text.occurrences_eq_zero_iff

/-! ### Blocks in front of others -/

lemma Block.modernText_eq (block : Block) : block.modernText = outlineText block.outline := by
  rw [modernText, outline]
  cases block.target with
  | universal => rfl
  | breakpoint name rank media =>
    simp only [BlockTarget.media?, outlineText, wrapping, ← String.append_assoc]
    rfl

/-- A stylesheet shows the outlines of its blocks, and nothing else of them. -/
lemma modernSheet_eq (plan : List Block) :
    modernSheet plan = "\n\n".intercalate ((plan.map Block.outline).map outlineText) := by
  rw [modernSheet, List.map_map]
  exact congrArg _ (List.map_congr_left fun block _ => block.modernText_eq)

lemma modernSheet_cons (block : Block) (plan : List Block) :
    modernSheet (block :: plan) = block.modernText ++ gapBefore plan ++ modernSheet plan := by
  cases plan with
  | nil => simp [modernSheet, gapBefore]
  | cons next plan => simp [modernSheet, gapBefore, String.intercalate_cons_cons]

lemma mediaRules_gapBefore (text : String) (plan : List Block) :
    mediaRules (text ++ gapBefore plan) = mediaRules text := by
  cases plan with
  | nil => rw [gapBefore, String.append_empty]
  | cons next plan =>
    have hend : mediaRules "" = 0 := by decide
    have hapart : keepsApart "\n\n" = true := by decide
    have happend := mediaRules_append_append hapart text ""
    rwa [String.append_empty, hend, Nat.add_zero] at happend

lemma mediaRules_wrapping (media : Media) (body : String) :
    mediaRules (wrapping media body) = mediaRules body := by
  have hparts : wrapping media body =
      "" ++ " " ++ media.predicate ++ " \x7b\n" ++ body ++ "\n\x7d" ++ "" := by
    rw [String.append_empty, String.empty_append]
    rfl
  have hend : mediaRules "" = 0 := by decide
  rw [hparts, mediaRules_append_append (by decide), mediaRules_append_append (by decide),
    mediaRules_append_append (by decide), hend, mediaRules_predicate]
  omega

lemma brace_notMem_predicate (media : Media) : '{' ∉ media.predicate.toList := by
  intro hmem
  have hchar := Media.isClauseChar_predicate hmem
  revert hchar
  decide

/-- The condition of a wrapper ends in front of the first brace, whatever the body is. -/
lemma wrapping_inj {media media' : Media} {body body' : String}
    (h : wrapping media body = wrapping media' body') : media = media' ∧ body = body' := by
  have hopen : ∀ media : Media, ¬" \x7b\n".toList <:+: (" " ++ media.predicate).toList := by
    intro media hin
    have hbrace : '{' ∈ (" " ++ media.predicate).toList := hin.subset (by decide)
    rw [String.toList_append, List.mem_append] at hbrace
    rcases hbrace with hblank | hpredicate
    · contradiction
    · exact brace_notMem_predicate media hpredicate
  have hsplit : ∀ (media : Media) (body : String), (wrapping media body).toList =
      (" " ++ media.predicate).toList ++ " \x7b\n".toList ++ (body ++ "\n\x7d").toList := by
    intro media body
    simp [wrapping]
  have hlists := congrArg String.toList h
  rw [hsplit, hsplit] at hlists
  obtain ⟨hpredicate, hbody⟩ :=
    Text.append_pattern_inj ⟨' ', _, rfl, by decide⟩ (hopen media) (hopen media') hlists
  rw [String.toList_inj, String.append_right_inj] at hpredicate
  rw [String.toList_inj, String.append_left_inj] at hbody
  exact ⟨Media.predicate_injective hpredicate, hbody⟩

/-! ### Wrapped plans -/

lemma Wrapped.exists_media {block : Block} {plan : List Block} (h : Wrapped (block :: plan)) :
    ∃ media, block.target.media? = some media ∧
      block.modernText = "@media" ++ wrapping media block.body := by
  have htarget := (h block List.mem_cons_self).1
  have htext := block.modernText_eq
  rw [Block.outline] at htext
  cases hmedia : block.target.media? with
  | none =>
    cases hblock : block.target with
    | universal => exact absurd hblock htarget
    | breakpoint name rank media => simp [hblock, BlockTarget.media?] at hmedia
  | some media =>
    rw [hmedia] at htext
    exact ⟨media, rfl, htext⟩

lemma Wrapped.of_cons {block : Block} {plan : List Block} (h : Wrapped (block :: plan)) :
    Wrapped plan :=
  fun next hnext => h next (List.mem_cons_of_mem block hnext)

/-- The stylesheet of a wrapped plan begins with a media rule, if there is any block. -/
lemma Wrapped.startsWith {plan : List Block} (h : Wrapped plan) :
    (modernSheet plan).toList = [] ∨ "@media".toList <+: (modernSheet plan).toList := by
  cases plan with
  | nil => exact .inl rfl
  | cons block plan =>
    obtain ⟨media, -, htext⟩ := h.exists_media
    right
    rw [modernSheet_cons, htext, String.append_assoc, String.append_assoc, String.toList_append]
    exact List.prefix_append _ _

lemma Wrapped.modernSheet_eq_empty_iff {plan : List Block} (h : Wrapped plan) :
    modernSheet plan = "" ↔ plan = [] := by
  cases plan with
  | nil => exact iff_of_true rfl rfl
  | cons block plan =>
    obtain ⟨media, -, htext⟩ := h.exists_media
    simp [modernSheet_cons, htext]

lemma gapBefore_eq_empty_iff {plan : List Block} : gapBefore plan = "" ↔ plan = [] := by
  cases plan <;> simp [gapBefore]

/-- A text without a media rule in front of a wrapped plan is told apart from the plan's sheet. -/
lemma Wrapped.append_sheet_inj {text text' : String} {plan plan' : List Block} (h : Wrapped plan)
    (h' : Wrapped plan') (htext : mediaRules text = 0) (htext' : mediaRules text' = 0)
    (heq : text ++ modernSheet plan = text' ++ modernSheet plan') :
    text = text' ∧ modernSheet plan = modernSheet plan' := by
  have hlists := congrArg String.toList heq
  rw [String.toList_append, String.toList_append] at hlists
  obtain ⟨hfront, hsheet⟩ := Text.append_inj_of_startsWith ⟨'@', _, rfl, by decide⟩
    (mediaRules_eq_zero_iff.mp htext) (mediaRules_eq_zero_iff.mp htext') h.startsWith h'.startsWith
    hlists
  exact ⟨String.toList_inj.mp hfront, String.toList_inj.mp hsheet⟩

/-- Plans with one stylesheet end together, so the same gap follows in both. -/
lemma Wrapped.gapBefore_eq {plan plan' : List Block} (h : Wrapped plan) (h' : Wrapped plan')
    (heq : modernSheet plan = modernSheet plan') : gapBefore plan = gapBefore plan' := by
  have hends : plan = [] ↔ plan' = [] := by
    rw [← h.modernSheet_eq_empty_iff, ← h'.modernSheet_eq_empty_iff, heq]
  cases plan with
  | nil => rw [hends.mp rfl]
  | cons block plan =>
    cases plan' with
    | nil => exact absurd (hends.mpr rfl) (by simp)
    | cons block' plan' => rfl

theorem Wrapped.outlines_eq {plan plan' : List Block} (h : Wrapped plan) (h' : Wrapped plan')
    (heq : modernSheet plan = modernSheet plan') :
    plan.map Block.outline = plan'.map Block.outline := by
  induction plan generalizing plan' with
  | nil =>
    obtain rfl := h'.modernSheet_eq_empty_iff.mp heq.symm
    rfl
  | cons block plan ih =>
    cases plan' with
    | nil => exact absurd (h.modernSheet_eq_empty_iff.mp heq) (by simp)
    | cons block' plan' =>
      obtain ⟨media, hmedia, htext⟩ := h.exists_media
      obtain ⟨media', hmedia', htext'⟩ := h'.exists_media
      have hplain := (mediaRules_gapBefore (wrapping media block.body) plan).trans
        ((mediaRules_wrapping media block.body).trans (h block List.mem_cons_self).2)
      have hplain' := (mediaRules_gapBefore (wrapping media' block'.body) plan').trans
        ((mediaRules_wrapping media' block'.body).trans (h' block' List.mem_cons_self).2)
      rw [modernSheet_cons, modernSheet_cons, htext, htext'] at heq
      simp only [String.append_assoc, String.append_right_inj] at heq
      rw [← String.append_assoc, ← String.append_assoc] at heq
      -- up to the next media rule there is the wrapper and the gap
      obtain ⟨hfront, hrest⟩ := h.of_cons.append_sheet_inj h'.of_cons hplain hplain' heq
      rw [h.of_cons.gapBefore_eq h'.of_cons hrest, String.append_left_inj] at hfront
      obtain ⟨rfl, hbody⟩ := wrapping_inj hfront
      have houtline : block.outline = block'.outline := by
        rw [Block.outline, Block.outline, hmedia, hmedia', hbody]
      rw [List.map_cons, List.map_cons, houtline, ih h.of_cons h'.of_cons hrest]

/-! ### Legible plans -/

/-- A legible plan is wrapped, but for universal rules in front. -/
lemma Legible.wrapped_or {plan : List Block} (h : Legible plan) :
    Wrapped plan ∨ ∃ body rest, plan.map Block.outline = (none, body) :: rest.map Block.outline ∧
      modernSheet plan = body ++ gapBefore rest ++ modernSheet rest ∧
      mediaRules (body ++ gapBefore rest) = 0 ∧ Wrapped rest := by
  cases plan with
  | nil => exact .inl (by simp [Wrapped])
  | cons block rest =>
    have hplain : mediaRules block.body = 0 :=
      mediaRules_eq_zero_iff.mpr (h.plain block List.mem_cons_self)
    have hrest : Wrapped rest := fun next hnext => ⟨h.universal_first next hnext,
      mediaRules_eq_zero_iff.mpr (h.plain next (List.mem_cons_of_mem block hnext))⟩
    cases htarget : block.target with
    | universal =>
      have houtline : block.outline = (none, block.body) := by
        rw [Block.outline, htarget]
        rfl
      refine .inr ⟨block.body, rest, ?_, ?_, ?_, hrest⟩
      · rw [List.map_cons, houtline]
      · rw [modernSheet_cons, block.modernText_eq, houtline, outlineText]
      · rw [mediaRules_gapBefore, hplain]
    | breakpoint name rank media =>
      left
      intro next hnext
      rcases List.mem_cons.mp hnext with rfl | hnext
      · exact ⟨by simp [htarget], hplain⟩
      · exact hrest next hnext

/-- Universal rules in front of a wrapped plan show, unless there are neither. -/
lemma Wrapped.sheet_eq_append_iff {body : String} {plan rest : List Block} (h : Wrapped plan)
    (hrest : Wrapped rest) (hplain : mediaRules (body ++ gapBefore rest) = 0)
    (heq : modernSheet plan = body ++ gapBefore rest ++ modernSheet rest) :
    plan = [] ∧ body = "" ∧ rest = [] := by
  have hempty : mediaRules "" = 0 := by decide
  obtain ⟨hfront, hsheet⟩ := h.append_sheet_inj hrest hempty hplain (by rwa [String.empty_append])
  obtain ⟨hbody, hgap⟩ := String.append_eq_empty_iff.mp hfront.symm
  obtain rfl := gapBefore_eq_empty_iff.mp hgap
  exact ⟨h.modernSheet_eq_empty_iff.mp hsheet, hbody, rfl⟩

/-- Legible plans with one stylesheet have the same outlines. No plan at all is the only one that
can be taken for another: for universal rules without any text. -/
theorem sheet_determines_plan {plan plan' : List Block} (h : Legible plan) (h' : Legible plan') :
    modernSheet plan = modernSheet plan' ↔
      plan.map Block.outline = plan'.map Block.outline ∨
        plan = [] ∧ plan'.map Block.outline = [(none, "")] ∨
        plan.map Block.outline = [(none, "")] ∧ plan' = [] := by
  constructor
  · intro heq
    rcases h.wrapped_or with hw | ⟨body, rest, houtlines, hsheet, hplain, hrest⟩
    · rcases h'.wrapped_or with hw' | ⟨body', rest', houtlines', hsheet', hplain', hrest'⟩
      · exact .inl (hw.outlines_eq hw' heq)
      · obtain ⟨rfl, rfl, rfl⟩ := hw.sheet_eq_append_iff hrest' hplain' (heq.trans hsheet')
        exact .inr (.inl ⟨rfl, houtlines'⟩)
    · rcases h'.wrapped_or with hw' | ⟨body', rest', houtlines', hsheet', hplain', hrest'⟩
      · obtain ⟨rfl, rfl, rfl⟩ := hw'.sheet_eq_append_iff hrest hplain (heq.symm.trans hsheet)
        exact .inr (.inr ⟨houtlines, rfl⟩)
      · rw [hsheet, hsheet'] at heq
        obtain ⟨hfront, hrests⟩ := hrest.append_sheet_inj hrest' hplain hplain' heq
        rw [hrest.gapBefore_eq hrest' hrests, String.append_left_inj] at hfront
        rw [houtlines, houtlines', hfront, hrest.outlines_eq hrest' hrests]
        exact .inl rfl
  · have hempty : modernSheet [] = "" := rfl
    rintro (houtlines | ⟨rfl, houtlines⟩ | ⟨houtlines, rfl⟩)
    · rw [modernSheet_eq, houtlines, ← modernSheet_eq]
    · rw [modernSheet_eq plan', houtlines]
      decide
    · rw [modernSheet_eq plan, houtlines]
      decide

/-- Universal rules that look like a wrapper's end and the beginning of the next one. -/
def tornPlan : List Block :=
  [⟨.universal, "a\n\x7d\n\n@medi", ["card"], 1⟩,
    ⟨.breakpoint "wide" 5 (.width (.atLeast 900)), "a \x7b\n\x7d\n\x7d\n\n", ["card"], 2⟩,
    ⟨.breakpoint "dense" 7 .hiDpi, "", ["menu"], 1⟩]

/-- A brace that changes its block, or an empty line its side, shows in the stylesheet. -/
theorem sheet_of_tornPlan :
    modernSheet tornPlan ≠ modernSheet
        [⟨.universal, "a\n\x7d\n\n@medi\n\n", ["card"], 1⟩,
          ⟨.breakpoint "wide" 5 (.width (.atLeast 900)), "a \x7b\n\x7d\n\x7d", ["card"], 2⟩,
          ⟨.breakpoint "dense" 7 .hiDpi, "", ["menu"], 1⟩] ∧
      modernSheet [] = modernSheet [⟨.universal, "", ["card"], 1⟩] := by
  have htorn : Legible tornPlan := ⟨by decide, by decide⟩
  constructor
  · rw [Ne, sheet_determines_plan htorn ⟨by decide, by decide⟩]
    decide
  · exact (sheet_determines_plan ⟨by decide, by decide⟩ ⟨by decide, by decide⟩).mpr (by decide)

end MediaSheets
