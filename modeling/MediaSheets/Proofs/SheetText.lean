import MediaSheets.Proofs.BlockOrder
import MediaSheets.Sheet

/-!
# The text of stylesheets

Both stylesheets of a compilation are functions of its history alone. The history is sorted
stably by the ranks of its targets. `Registry.sheetText` cuts it into runs with one target
each and wraps those of breakpoints in their conditions; the stylesheet for old browsers
joins the texts of the targets that such browsers are given.
-/

namespace MediaSheets

/-- Fragments in ascending order of the ranks of their targets. Fragments for one target
keep their order. -/
def Registry.byRank (r : Registry) (fs : List Fragment) : List Fragment :=
  stableSort (r.height ∘ Fragment.target) fs

/-- The texts of fragments, each on lines of its own. -/
def joinedText (fs : List Fragment) : String := "\n".intercalate (fs.map Fragment.text)

/-- The text of a run: as it is if it is universal, and otherwise wrapped in the condition
of its breakpoint. -/
def Registry.runText (r : Registry) (run : List Fragment) : Except AuthoringError String :=
  match run.head?.map Fragment.target with
  | some (.breakpoint name) => do
    return "@media " ++ (← r.predicate name) ++ " \x7b\n" ++ joinedText run ++ "\n\x7d"
  | _ => .ok (joinedText run)

/-- The runs of a sorted history, with an empty line between two of them. -/
def Registry.sheetText (r : Registry) (fs : List Fragment) : Except AuthoringError String := do
  let texts ← (runs Fragment.target (r.byRank fs)).mapM r.runText
  return "\n\n".intercalate texts

/-- Whether old browsers are given the rules of a target: universal rules, breakpoints
with an upper bound on the width, and those with a lower bound up to the cutoff. -/
def Registry.reachesOldBrowsers (r : Registry) : Target → Bool
  | .universal => true
  | .breakpoint name =>
    match r.resolve name with
    | .error _ => false
    | .ok b =>
      match b.condition with
      | .width (.atMost _) => true
      | .width (.atLeast _) => b.rank ≤ r.cutoff
      | _ => false

/-! ### Joining -/

lemma mapM_eq_ok {ε α β : Type} {f : α → Except ε β} {g : α → β} {l : List α}
    (h : ∀ a ∈ l, f a = .ok (g a)) : l.mapM f = .ok (l.map g) := by
  induction l with
  | nil => rfl
  | cons a l ih =>
    rw [List.mapM_cons, h a (by simp), ih (fun b hb => h b (by simp [hb]))]
    rfl

/-- Joining in two steps is joining at once, when no group is empty. -/
lemma intercalate_map_intercalate (separator : String) {groups : List (List String)}
    (h : [] ∉ groups) :
    separator.intercalate (groups.map separator.intercalate) =
      separator.intercalate groups.flatten := by
  induction groups with
  | nil => rfl
  | cons group groups ih =>
    rw [List.mem_cons, not_or] at h
    cases groups with
    | nil => simp
    | cons next groups =>
      have hrest : (next :: groups).flatten ≠ [] := by
        have hnext : next ≠ [] := fun heq => h.2 (by simp [heq])
        simp [hnext]
      have hflatten : (group :: next :: groups).flatten = group ++ (next :: groups).flatten := rfl
      rw [List.map_cons, String.intercalate_cons_of_ne_nil (by simp), ih h.2, hflatten,
        String.intercalate_append_of_ne_nil (Ne.symm h.1) hrest]

namespace Compilation.Holds

variable {c : Compilation} {r : Registry} {fs : List Fragment} (hc : c.Holds r fs)
include hc

lemma bucket_isEmpty (t : Target) :
    (c.bucket t).isEmpty = (withKey Fragment.target fs t).isEmpty := by
  rw [hc.bucket, ← map_fragment_withKey, List.isEmpty_map]

lemma map_text_bucket (t : Target) :
    (c.bucket t).map (fun filed => filed.fragment.text) =
      (withKey Fragment.target fs t).map Fragment.text := by
  rw [hc.bucket, ← map_fragment_withKey, List.map_map]
  rfl

lemma body_ofBucket (t : BlockTarget) :
    (Block.ofBucket t (c.bucket t.toTarget)).body =
      joinedText (withKey Fragment.target fs t.toTarget) := by
  rw [Block.ofBucket, hc.map_text_bucket, joinedText]

lemma byRank_eq (hr : r.WellFormed) :
    r.byRank fs = r.targets.flatMap (withKey Fragment.target fs) :=
  hr.stableSort_height hc.registered

/-- The run of a target is the text of its block. -/
lemma runText_withKey (hr : r.WellFormed) {t : BlockTarget} (ht : t ∈ r.blockTargets .modern)
    (hne : withKey Fragment.target fs t.toTarget ≠ []) :
    r.runText (withKey Fragment.target fs t.toTarget) =
      .ok (Block.ofBucket t (c.bucket t.toTarget)).modernText := by
  have hhead : (withKey Fragment.target fs t.toTarget).head?.map Fragment.target =
      some t.toTarget := by
    rw [List.head?_eq_some_head hne, Option.map_some, (mem_withKey.mp (List.head_mem hne)).2]
  rw [Registry.runText, hhead, Block.modernText, hc.body_ofBucket]
  rcases List.mem_cons.mp ht with rfl | ht
  · rfl
  · obtain ⟨e, he, rfl⟩ := List.mem_map.mp ht
    have hpredicate := hr.predicate_of_mem (List.mem_filter.mp he).1
    simp only [Entry.blockTarget, BlockTarget.toTarget, BlockTarget.name?, Target.ofName?,
      Block.ofBucket, hpredicate]
    rfl

end Compilation.Holds

/-! ### The stylesheet with conditions -/

/-- The stylesheet with conditions is the history in order of rank, run by run. -/
theorem modern_eq_sheetText {r : Registry} (hr : r.Reachable) {c : Compilation}
    {log log' : WarningLog} {fs : List Fragment}
    (h : (Compilation.start r).submitAll log fs = .ok (c, log')) :
    r.sheetText fs = .ok c.modern := by
  have hc := Compilation.holds_of_submitAll h
  have hw := hr.wellFormed
  have hruns : runs Fragment.target (r.byRank fs) =
      ((r.blockTargets .modern).filter fun t => !(c.bucket t.toTarget).isEmpty).map
        fun t => withKey Fragment.target fs t.toTarget := by
    rw [hc.byRank_eq hw, runs_flatMap_withKey hw.targets_nodup, ← r.map_toTarget_blockTargets,
      List.filter_map, List.map_map]
    simp only [hc.bucket_isEmpty]
    rfl
  have htexts : (runs Fragment.target (r.byRank fs)).mapM r.runText =
      .ok ((c.plan .modern).map Block.modernText) := by
    rw [hruns, List.mapM_map, Compilation.plan_eq_map, hc.registry, List.map_map]
    apply mapM_eq_ok
    intro t ht
    obtain ⟨ht, hne⟩ := List.mem_filter.mp ht
    rw [hc.bucket_isEmpty] at hne
    exact hc.runText_withKey hw ht (by simpa using hne)
  rw [Registry.sheetText, htexts]
  rfl

theorem modern_of_mixedFragments :
    ∃ c log, (Compilation.start .mixed).submitAll {} mixedFragments = .ok (c, log) ∧
      Registry.mixed.sheetText mixedFragments = .ok ("\n\n".intercalate
        ["\nd", "@media only screen and (max-width: 400px) \x7b\nb\nf\n\x7d",
          "@media " ++ (Media.widthHiDpi (.atLeast 900)).predicate ++ " \x7b\nc\n\x7d",
          "@media only screen and (min-width: 900px) \x7b\na\ne\n\x7d"]) := by
  have hsubmit : (Compilation.start .mixed).submitAll {} mixedFragments = .ok (_, _) := rfl
  refine ⟨_, _, hsubmit, ?_⟩
  rw [modern_eq_sheetText Registry.mixed_reachable hsubmit]
  decide +kernel

/-! ### The stylesheet without conditions -/

/-- Old browsers are given a registered breakpoint exactly when it is eligible. -/
lemma Registry.WellFormed.reachesOldBrowsers_of_mem {r : Registry} (hr : r.WellFormed) {e : Entry}
    (he : e ∈ r.entries) :
    r.reachesOldBrowsers (.breakpoint e.breakpoint.name) = r.isLegacy e.breakpoint := by
  simp only [reachesOldBrowsers, hr.resolve_of_mem he]
  rfl

lemma Registry.WellFormed.map_toTarget_blockTargets_legacy {r : Registry} (hr : r.WellFormed) :
    (r.blockTargets .legacy).map BlockTarget.toTarget = r.targets.filter r.reachesOldBrowsers := by
  have hentries : r.entries.filter (fun e => r.isLegacy e.breakpoint) =
      r.entries.filter fun e => r.reachesOldBrowsers (.breakpoint e.breakpoint.name) := by
    apply List.filter_congr
    intro e he
    rw [hr.reachesOldBrowsers_of_mem he]
  simp only [blockTargets, targets, includes, hentries, List.map_cons, List.map_map]
  rw [List.filter_cons_of_pos rfl, List.filter_map]
  rfl

lemma filter_flatMap_withKey {α τ : Type} [DecidableEq τ] (target : α → τ) (p : τ → Bool)
    (l : List α) (ts : List τ) :
    (ts.flatMap (withKey target l)).filter (fun a => p (target a)) =
      (ts.filter p).flatMap (withKey target l) := by
  induction ts with
  | nil => rfl
  | cons t ts ih =>
    rw [List.flatMap_cons, List.filter_append, ih]
    cases hp : p t with
    | true =>
      rw [List.filter_cons_of_pos hp, List.flatMap_cons, List.filter_eq_self.mpr]
      intro a ha
      rw [(mem_withKey.mp ha).2, hp]
    | false =>
      rw [List.filter_cons_of_neg (by simp [hp]), List.filter_eq_nil_iff.mpr, List.nil_append]
      intro a ha
      rw [(mem_withKey.mp ha).2, hp]
      exact Bool.false_ne_true

/-- Bodies are joined as if there were no blocks. -/
lemma Compilation.Holds.legacySheet_plan {c : Compilation} {r : Registry} {fs : List Fragment}
    (hc : c.Holds r fs) (mode : Mode) :
    legacySheet (c.plan mode) = joinedText
      (((r.blockTargets mode).map BlockTarget.toTarget).flatMap (withKey Fragment.target fs)) := by
  have hbodies : (c.plan mode).map Block.body =
      (((r.blockTargets mode).filter fun t => !(withKey Fragment.target fs t.toTarget).isEmpty).map
        fun t => (withKey Fragment.target fs t.toTarget).map Fragment.text).map
          (String.intercalate "\n") := by
    rw [plan_eq_map, hc.registry, List.map_map, List.map_map]
    simp only [hc.bucket_isEmpty]
    exact List.map_congr_left fun t _ => hc.body_ofBucket t
  have hnone : [] ∉ ((r.blockTargets mode).filter
      fun t => !(withKey Fragment.target fs t.toTarget).isEmpty).map
        fun t => (withKey Fragment.target fs t.toTarget).map Fragment.text := by
    simp
  rw [legacySheet, hbodies, intercalate_map_intercalate "\n" hnone, joinedText, List.flatMap_map,
    List.map_flatMap, flatMap_eq_flatten_filter]
  simp only [List.isEmpty_map]

/-- The stylesheet without conditions joins the texts that old browsers are given, in order
of rank. Rules for dense screens are never among them. -/
theorem legacy_eq_joinedText {r : Registry} (hr : r.Reachable) {c : Compilation}
    {log log' : WarningLog} {fs : List Fragment}
    (h : (Compilation.start r).submitAll log fs = .ok (c, log')) :
    c.legacy = joinedText ((r.byRank fs).filter fun f => r.reachesOldBrowsers f.target) ∧
      ∀ f ∈ fs, ∀ name b, f.target = .breakpoint name → r.resolve name = .ok b →
        b.kind ≠ .baseWidth → r.reachesOldBrowsers f.target = false := by
  have hc := Compilation.holds_of_submitAll h
  have hw := hr.wellFormed
  constructor
  · rw [hc.byRank_eq hw, filter_flatMap_withKey, ← hw.map_toTarget_blockTargets_legacy]
    exact hc.legacySheet_plan .legacy
  · rintro f - name b hf hb hkind
    rw [hf]
    simp only [Registry.reachesOldBrowsers, hb]
    cases hcondition : b.condition with
    | width bound => exact absurd (by simp [Breakpoint.kind, Condition.kind, hcondition]) hkind
    | hiDpi => rfl
    | pairedHiDpi base => rfl

theorem legacy_of_mixedFragments :
    ∃ c log, (Compilation.start .mixed).submitAll {} mixedFragments = .ok (c, log) ∧
      joinedText ((Registry.mixed.byRank mixedFragments).filter
        fun f => Registry.mixed.reachesOldBrowsers f.target) =
        "\nd\nb\nf\na\ne" := by
  have hsubmit : (Compilation.start .mixed).submitAll {} mixedFragments = .ok (_, _) := rfl
  refine ⟨_, _, hsubmit, ?_⟩
  rw [← (legacy_eq_joinedText Registry.mixed_reachable hsubmit).1]
  decide +kernel

end MediaSheets
