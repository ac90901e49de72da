import MediaSheets.Proofs.PlanHistory
import MediaSheets.Proofs.Predicates

/-!
# Media rules

`mediaRules` counts the places where a text has the word that opens a media rule. Rule texts can
have it too, or begin and end with parts of it. Whatever they are, a stylesheet has it where the
texts have it, and where the block of a breakpoint is wrapped.
-/

namespace MediaSheets

/-- The number of places where a text has `@media`, no two of which overlap. -/
def mediaRules (text : String) : Nat := Text.occurrences "@media".toList text.toList

/-- The number of places where the texts of some fragments have `@media`. -/
def mediaRulesWithin (fs : List Fragment) : Nat := (fs.map fun f => mediaRules f.text).sum

/-- Whether a text keeps what is before it and what is behind it apart: it is not empty, and no
character of it stands in `@media`. -/
def keepsApart (separator : String) : Bool :=
  separator != "" && separator.toList.all fun c => !"@media".toList.contains c

/-! ### Joining -/

lemma keepsApart_iff {separator : String} : keepsApart separator = true ↔
    separator ≠ "" ∧ ∀ c ∈ separator.toList, c ∉ "@media".toList := by
  simp only [keepsApart, Bool.and_eq_true, bne_iff_ne, List.all_eq_true, Bool.not_eq_true',
    ← Bool.not_eq_true, List.contains_iff_mem]

lemma mediaRules_intercalate {separator : String} (h : keepsApart separator = true)
    (texts : List String) :
    mediaRules (separator.intercalate texts) = (texts.map mediaRules).sum := by
  obtain ⟨hne, hseparator⟩ := keepsApart_iff.mp h
  exact Text.occurrences_intercalate (by decide) hne hseparator texts

lemma mediaRules_append_append {separator : String} (h : keepsApart separator = true)
    (text rest : String) :
    mediaRules (text ++ separator ++ rest) = mediaRules text + mediaRules rest := by
  obtain ⟨hne, hseparator⟩ := keepsApart_iff.mp h
  rw [mediaRules, String.toList_append, String.toList_append]
  exact Text.occurrences_append_append (by decide) (by simpa using hne) hseparator _ _

lemma mediaRules_joinedText (fs : List Fragment) :
    mediaRules (joinedText fs) = mediaRulesWithin fs := by
  rw [joinedText, mediaRules_intercalate (by decide), List.map_map]
  rfl

lemma mediaRulesWithin_perm {fs gs : List Fragment} (h : fs.Perm gs) :
    mediaRulesWithin fs = mediaRulesWithin gs :=
  (h.map _).sum_nat

/-! ### Wrapping -/

lemma mediaRules_predicate (media : Media) : mediaRules media.predicate = 0 := by
  apply Text.occurrences_of_notMem (c := '@') (by decide)
  intro hat
  have hchar := Media.isClauseChar_predicate hat
  revert hchar
  decide

/-- A wrapper adds one media rule to those of its body. -/
lemma mediaRules_wrapped (media : Media) (body : String) :
    mediaRules ("@media " ++ media.predicate ++ " \x7b\n" ++ body ++ "\n\x7d") =
      1 + mediaRules body := by
  have hparts : "@media " ++ media.predicate ++ " \x7b\n" ++ body ++ "\n\x7d" =
      "@media" ++ " " ++ media.predicate ++ " \x7b\n" ++ body ++ "\n\x7d" ++ "" := by
    rw [String.append_empty]
    rfl
  have hword : mediaRules "@media" = 1 := by decide
  have hend : mediaRules "" = 0 := by decide
  rw [hparts, mediaRules_append_append (by decide),
    mediaRules_append_append (by decide),
    mediaRules_append_append (by decide), hword, hend, mediaRules_predicate]
  omega

lemma mediaRules_modernText (block : Block) :
    mediaRules block.modernText =
      (if block.target.name?.isSome then 1 else 0) + mediaRules block.body := by
  rw [Block.modernText]
  cases block.target with
  | universal => simp [BlockTarget.name?]
  | breakpoint name rank media => exact mediaRules_wrapped media block.body

/-- Conditions add one media rule for each block that is wrapped in one. -/
lemma mediaRules_modernSheet (plan : List Block) :
    mediaRules (modernSheet plan) =
      (plan.countP fun block => block.target.name?.isSome) + mediaRules (legacySheet plan) := by
  rw [modernSheet, legacySheet, mediaRules_intercalate (by decide),
    mediaRules_intercalate (by decide)]
  induction plan with
  | nil => rfl
  | cons block plan ih =>
    simp only [List.map_cons, List.sum_cons, List.countP_cons, mediaRules_modernText, ih]
    omega

/-! ### Blocks for breakpoints -/

lemma BlockTarget.name?_toTarget (t : BlockTarget) : t.toTarget.name? = t.name? := by
  cases t <;> rfl

lemma Target.name?_eq_some_iff {t : Target} {name : String} :
    t.name? = some name ↔ t = .breakpoint name := by
  cases t <;> simp [name?]

/-- A plan has one block for each breakpoint that fragments are meant for. -/
lemma Registry.Arranges.countP_breakpoints {r : Registry} {fs : List Fragment} {plan : List Block}
    (h : r.Arranges fs plan) :
    (plan.countP fun block => block.target.name?.isSome) =
      (distinct (fs.filterMap fun f => f.target.name?)).length := by
  have hnames : plan.filterMap (fun block => block.target.name?) =
      (plan.map fun block => block.target.toTarget).filterMap Target.name? := by
    rw [List.filterMap_map]
    simp only [Function.comp_def, BlockTarget.name?_toTarget]
  have hnodup : (plan.filterMap fun block => block.target.name?).Nodup := by
    rw [hnames]
    apply h.nodup_targets.filterMap
    intro t u name ht hu
    rw [Target.name?_eq_some_iff.mp ht, Target.name?_eq_some_iff.mp hu]
  have hmem : ∀ name, name ∈ plan.filterMap (fun block => block.target.name?) ↔
      name ∈ distinct (fs.filterMap fun f => f.target.name?) := by
    intro name
    rw [hnames, mem_distinct, List.mem_filterMap, List.mem_filterMap]
    simp only [Target.name?_eq_some_iff, exists_eq_right, h.mem_targets_iff]
  rw [← List.length_filterMap_eq_countP]
  exact ((List.perm_ext_iff_of_nodup hnodup (nodup_distinct _)).mpr hmem).length_eq

/-! ### Stylesheets -/

/-- The bodies of all blocks have the media rules of the fragments. -/
lemma Compilation.Holds.mediaRules_bodies {c : Compilation} {r : Registry} {fs : List Fragment}
    (hc : c.Holds r fs) (hr : r.WellFormed) :
    mediaRules (legacySheet (c.plan .modern)) = mediaRulesWithin fs := by
  rw [hc.legacySheet_plan, r.map_toTarget_blockTargets, ← hc.byRank_eq hr, mediaRules_joinedText]
  exact mediaRulesWithin_perm (List.mergeSort_perm _ _)

lemma Compilation.Holds.mediaRules_legacy {c : Compilation} {r : Registry} {fs : List Fragment}
    (hc : c.Holds r fs) (hr : r.WellFormed) :
    mediaRules c.legacy = mediaRulesWithin (fs.filter fun f => r.reachesOldBrowsers f.target) := by
  rw [Compilation.legacy, hc.legacySheet_plan, hr.map_toTarget_blockTargets_legacy,
    ← filter_flatMap_withKey, ← hc.byRank_eq hr, mediaRules_joinedText]
  exact mediaRulesWithin_perm ((List.mergeSort_perm _ _).filter _)

/-- The stylesheet with conditions has one media rule for each breakpoint that fragments are meant
for, and those of all texts. The stylesheet for old browsers has those of the texts that it is
made of, and no more. -/
theorem media_rules_counted {r : Registry} (hr : r.Reachable) {c : Compilation}
    {log log' : WarningLog} {fs : List Fragment}
    (h : (Compilation.start r).submitAll log fs = .ok (c, log')) :
    mediaRules c.modern =
        (distinct (fs.filterMap fun f => f.target.name?)).length + mediaRulesWithin fs ∧
      mediaRules c.legacy =
        mediaRulesWithin (fs.filter fun f => r.reachesOldBrowsers f.target) := by
  have hc := Compilation.holds_of_submitAll h
  have hw := hr.wellFormed
  have harranges : r.Arranges fs (c.plan .modern) := by
    rw [hc.plan_eq]
    exact hw.arranges_planOf hc.registered
  constructor
  · rw [Compilation.modern, mediaRules_modernSheet, harranges.countP_breakpoints,
      hc.mediaRules_bodies hw]
  · exact hc.mediaRules_legacy hw

/-- Texts with `@media`, and texts that begin and end with parts of it. -/
def tornFragments : List Fragment :=
  [⟨"card", .breakpoint "wide", "@media print \x7b\x7d @med"⟩, ⟨"card", .breakpoint "wide", "ia"⟩,
    ⟨"menu", .breakpoint "dense", "@@media"⟩, ⟨"menu", .universal, "a @medi"⟩,
    ⟨"card", .universal, ""⟩, ⟨"card", .universal, "a"⟩]

theorem media_rules_of_tornFragments :
    ∃ c log, (Compilation.start .mixed).submitAll {} tornFragments = .ok (c, log) ∧
      mediaRules c.modern = 4 ∧ mediaRules c.legacy = 1 := by
  have hsubmit : (Compilation.start .mixed).submitAll {} tornFragments = .ok (_, _) := rfl
  obtain ⟨hmodern, hlegacy⟩ := media_rules_counted Registry.mixed_reachable hsubmit
  refine ⟨_, _, hsubmit, ?_, ?_⟩
  · rw [hmodern]
    decide
  · rw [hlegacy]
    decide

end MediaSheets
