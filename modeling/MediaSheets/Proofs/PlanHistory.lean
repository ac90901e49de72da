import MediaSheets.Proofs.RegistryConsistency
import MediaSheets.Proofs.SheetText
import Mathlib.Algebra.GroupWithZero.Nat

/-!
# Plans as functions of the history

`Registry.planOf` makes a plan from the parts of a history that have one target each. A
compilation's plan is that of its history, so it does not depend on how fragments for
different targets are mixed. `Registry.Arranges` says that a plan has all fragments of a
history, each of them in the one block of its target.
-/

namespace MediaSheets

/-- The block that fragments for one target make. -/
def Block.ofFragments (target : BlockTarget) (fs : List Fragment) : Block where
  target := target
  body := joinedText fs
  components := distinct (fs.map Fragment.component)
  fragmentCount := fs.length

/-- The plan of a history: one block for each target that it has fragments for. -/
def Registry.planOf (r : Registry) (mode : Mode) (fs : List Fragment) : List Block :=
  ((r.blockTargets mode).filter fun t => !(withKey Fragment.target fs t.toTarget).isEmpty).map
    fun t => .ofFragments t (withKey Fragment.target fs t.toTarget)

def BlockTarget.rank? : BlockTarget → Option Int32
  | .universal => none
  | .breakpoint _ rank _ => some rank

/-- The place of a block in a plan: universal rules come first, then breakpoints by rank. -/
def Block.height (block : Block) : WithBot Int32 :=
  match block.target with
  | .universal => ⊥
  | .breakpoint _ rank _ => rank

/-- Whether a block belongs into the stylesheet for old browsers: the universal block does,
and so do the blocks of the breakpoints that old browsers are given. -/
def Registry.keepsForOldBrowsers (r : Registry) : BlockTarget → Bool
  | .universal => true
  | .breakpoint name _ _ => r.legacyBreakpoints.any fun b => b.name = name

/-- A plan has all fragments of a history, each of them in the one block of its target. -/
structure Registry.Arranges (r : Registry) (fs : List Fragment) (plan : List Block) : Prop where
  nodup_targets : (plan.map fun block => block.target.toTarget).Nodup
  mem_targets_iff : ∀ t, t ∈ plan.map (fun block => block.target.toTarget) ↔
    ∃ f ∈ fs, f.target = t
  universal_first : ∀ block ∈ plan, block.target = .universal → plan.head? = some block
  ranks_ascending : (plan.filterMap fun block => block.target.rank?).Pairwise (· < ·)
  target_eq : ∀ block ∈ plan, ∀ name rank media, block.target = .breakpoint name rank media →
    (∃ b, r.resolve name = .ok b ∧ b.rank = rank) ∧ r.media name = .ok media
  fragmentCount_pos : ∀ block ∈ plan, 1 ≤ block.fragmentCount
  fragmentCount_eq : ∀ block ∈ plan,
    block.fragmentCount = (withKey Fragment.target fs block.target.toTarget).length
  body_eq : ∀ block ∈ plan,
    block.body = joinedText (withKey Fragment.target fs block.target.toTarget)
  sum_fragmentCount : (plan.map Block.fragmentCount).sum = fs.length

/-! ### The plan of a compilation -/

lemma Block.ofBucket_eq (t : BlockTarget) (bucket : List Filed) :
    Block.ofBucket t bucket = .ofFragments t (bucket.map Filed.fragment) := by
  simp only [ofBucket, ofFragments, joinedText, List.map_map, List.length_map]
  rfl

namespace Compilation

lemma Holds.plan_eq {c : Compilation} {r : Registry} {fs : List Fragment} (hc : c.Holds r fs)
    (mode : Mode) : c.plan mode = r.planOf mode fs := by
  rw [plan_eq_map, hc.registry, Registry.planOf]
  simp only [hc.bucket_isEmpty]
  apply List.map_congr_left
  intro t _
  rw [Block.ofBucket_eq, hc.bucket, map_fragment_withKey]

end Compilation

/-! ### Interleavings -/

/-- Histories that have the same fragments for some targets make the same blocks for them. -/
lemma Registry.filter_planOf_congr (r : Registry) (mode : Mode) (p : BlockTarget → Bool)
    {fs gs : List Fragment} (h : ∀ t ∈ r.blockTargets mode, p t = true →
      withKey Fragment.target gs t.toTarget = withKey Fragment.target fs t.toTarget) :
    ((r.planOf mode gs).filter fun block => p block.target) =
      (r.planOf mode fs).filter fun block => p block.target := by
  have hkept : ∀ t ∈ r.blockTargets mode,
      (p t && !(withKey Fragment.target gs t.toTarget).isEmpty) =
        (p t && !(withKey Fragment.target fs t.toTarget).isEmpty) := by
    intro t ht
    cases hp : p t with
    | false => rfl
    | true => rw [h t ht hp]
  rw [planOf, planOf, List.filter_map, List.filter_map, List.filter_filter, List.filter_filter]
  simp only [Function.comp_def, Block.ofFragments]
  rw [List.filter_congr hkept]
  apply List.map_congr_left
  intro t ht
  obtain ⟨ht, hp⟩ := List.mem_filter.mp ht
  rw [h t ht (Bool.and_eq_true_iff.mp hp).1]

lemma Registry.planOf_congr_of_mem (r : Registry) (mode : Mode) {fs gs : List Fragment}
    (h : ∀ t ∈ r.blockTargets mode,
      withKey Fragment.target gs t.toTarget = withKey Fragment.target fs t.toTarget) :
    r.planOf mode gs = r.planOf mode fs := by
  have hfilter := r.filter_planOf_congr mode (fun _ => true) fun t ht _ => h t ht
  rwa [List.filter_true, List.filter_true] at hfilter

lemma Registry.planOf_congr (r : Registry) (mode : Mode) {fs gs : List Fragment}
    (h : ∀ t, withKey Fragment.target gs t = withKey Fragment.target fs t) :
    r.planOf mode gs = r.planOf mode fs :=
  r.planOf_congr_of_mem mode fun t _ => h t.toTarget

/-- Fragments for different targets can be mixed in any way: if each target has the same
fragments in the same order, they are accepted as before and make the same plans and
stylesheets. -/
theorem plan_of_interleaving {r : Registry} {c : Compilation} {log log₁ : WarningLog}
    {fs gs : List Fragment} (h : (Compilation.start r).submitAll log fs = .ok (c, log₁))
    (hparts : ∀ t, withKey Fragment.target gs t = withKey Fragment.target fs t)
    (log' : WarningLog) :
    ∃ c' log₂, (Compilation.start r).submitAll log' gs = .ok (c', log₂) ∧
      (∀ mode, c'.plan mode = c.plan mode) ∧ c'.modern = c.modern ∧ c'.legacy = c.legacy := by
  have hc := Compilation.holds_of_submitAll h
  have haccepted : ∀ g ∈ gs, r.check g.target = .ok () := by
    intro g hg
    have hmem : g ∈ withKey Fragment.target gs g.target := mem_withKey.mpr ⟨hg, rfl⟩
    rw [hparts] at hmem
    exact hc.registered g (mem_withKey.mp hmem).1
  obtain ⟨c', log₂, h'⟩ := Compilation.exists_submitAll (c := .start r) haccepted log'
  have hplan : ∀ mode, c'.plan mode = c.plan mode := by
    intro mode
    rw [(Compilation.holds_of_submitAll h').plan_eq, hc.plan_eq, r.planOf_congr mode hparts]
  refine ⟨c', log₂, h', hplan, ?_, ?_⟩
  · rw [Compilation.modern, hplan, Compilation.modern]
  · rw [Compilation.legacy, hplan, Compilation.legacy]

/-- The mixed fragments with their targets in other turns. -/
def regroupedFragments : List Fragment :=
  [⟨"card", .breakpoint "narrow", "b"⟩, ⟨"menu", .universal, ""⟩,
    ⟨"card", .breakpoint "narrow", "f"⟩, ⟨"card", .breakpoint "wide", "a"⟩,
    ⟨"menu", .breakpoint "wide", "e"⟩, ⟨"card", .universal, "d"⟩,
    ⟨"menu", .breakpoint "wide2x", "c"⟩]

lemma withKey_regroupedFragments (t : Target) :
    withKey Fragment.target regroupedFragments t = withKey Fragment.target mixedFragments t := by
  by_cases ht : t ∈ [.universal, .breakpoint "narrow", .breakpoint "wide", .breakpoint "wide2x"]
  · revert t
    decide
  · simp only [List.mem_cons, List.not_mem_nil, or_false, not_or] at ht
    simp [withKey, regroupedFragments, mixedFragments, eq_comm, ht]

theorem plan_of_regroupedFragments :
    ∃ c log c' log', (Compilation.start .mixed).submitAll {} mixedFragments = .ok (c, log) ∧
      (Compilation.start .mixed).submitAll {} regroupedFragments = .ok (c', log') ∧
      c'.inSubmissionOrder ≠ c.inSubmissionOrder ∧ c'.plan .modern = c.plan .modern ∧
      (c'.plan .modern).map Block.body = ["\nd", "b\nf", "c", "a\ne"] ∧
      c'.modern = c.modern ∧ c'.legacy = c.legacy := by
  have hsubmit : (Compilation.start .mixed).submitAll {} mixedFragments = .ok (_, _) := rfl
  obtain ⟨c', log', hsubmit', hplan, hmodern, hlegacy⟩ :=
    plan_of_interleaving hsubmit withKey_regroupedFragments {}
  refine ⟨_, _, c', log', hsubmit, hsubmit', ?_, hplan .modern, ?_, hmodern, hlegacy⟩
  · rw [(Compilation.holds_of_submitAll hsubmit').inSubmissionOrder_eq,
      (Compilation.holds_of_submitAll hsubmit).inSubmissionOrder_eq]
    decide
  · rw [hplan]
    rfl

/-! ### Arrangement -/

lemma Registry.map_toTarget_planOf (r : Registry) (fs : List Fragment) :
    (r.planOf .modern fs).map (fun block => block.target.toTarget) =
      r.targets.filter fun t => !(withKey Fragment.target fs t).isEmpty := by
  rw [planOf, ← r.map_toTarget_blockTargets, List.map_map, List.filter_map]
  rfl

lemma Registry.mem_planOf_iff {r : Registry} {mode : Mode} {fs : List Fragment} {block : Block} :
    block ∈ r.planOf mode fs ↔ ∃ t ∈ r.blockTargets mode,
      withKey Fragment.target fs t.toTarget ≠ [] ∧
      block = .ofFragments t (withKey Fragment.target fs t.toTarget) := by
  rw [planOf, List.mem_map]
  constructor
  · rintro ⟨t, ht, rfl⟩
    obtain ⟨ht, hne⟩ := List.mem_filter.mp ht
    exact ⟨t, ht, by simpa using hne, rfl⟩
  · rintro ⟨t, ht, hne, rfl⟩
    exact ⟨t, List.mem_filter.mpr ⟨ht, by simpa using hne⟩, rfl⟩

lemma withKey_ne_nil_iff {fs : List Fragment} {t : Target} :
    withKey Fragment.target fs t ≠ [] ↔ ∃ f ∈ fs, f.target = t := by
  simp [withKey]

lemma Registry.universal_first_of_planOf (r : Registry) (fs : List Fragment) {block : Block}
    (hblock : block ∈ r.planOf .modern fs) (huniversal : block.target = .universal) :
    (r.planOf .modern fs).head? = some block := by
  obtain ⟨t, -, hne, rfl⟩ := mem_planOf_iff.mp hblock
  have ht : t = .universal := huniversal
  subst ht
  have hkept : (!(withKey Fragment.target fs BlockTarget.universal.toTarget).isEmpty) = true := by
    simpa using hne
  rw [planOf, blockTargets, List.filter_cons, if_pos hkept]
  rfl

lemma Block.height_of_rank? {block : Block} {rank : Int32} (h : block.target.rank? = some rank) :
    block.height = rank := by
  unfold height
  cases htarget : block.target with
  | universal =>
    rw [htarget] at h
    contradiction
  | breakpoint name rank' media =>
    rw [htarget] at h
    obtain rfl := Option.some.inj h
    rfl

namespace Registry.WellFormed

variable {r : Registry} (hr : r.WellFormed)
include hr

lemma planOf_ascending (mode : Mode) (fs : List Fragment) :
    (r.planOf mode fs).Pairwise fun a b => a.height < b.height := by
  rw [planOf, List.pairwise_map]
  refine List.Pairwise.filter _ (List.pairwise_cons.mpr ⟨?_, List.pairwise_map.mpr ?_⟩)
  · intro t ht
    obtain ⟨e, -, rfl⟩ := List.mem_map.mp ht
    exact WithBot.bot_lt_coe _
  · exact (hr.ascending.filter _).imp fun hlt => WithBot.coe_lt_coe.mpr hlt

lemma ranks_planOf_ascending (fs : List Fragment) :
    ((r.planOf .modern fs).filterMap fun block => block.target.rank?).Pairwise (· < ·) := by
  rw [List.pairwise_filterMap]
  refine (hr.planOf_ascending .modern fs).imp ?_
  intro a b hlt rank hrank rank' hrank'
  rw [Block.height_of_rank? hrank, Block.height_of_rank? hrank', WithBot.coe_lt_coe] at hlt
  exact hlt

lemma target_of_mem_planOf {mode : Mode} {fs : List Fragment} {block : Block}
    (hblock : block ∈ r.planOf mode fs) {name : String} {rank : Int32} {media : Media}
    (htarget : block.target = .breakpoint name rank media) :
    (∃ b, r.resolve name = .ok b ∧ b.rank = rank) ∧ r.media name = .ok media := by
  obtain ⟨t, ht, -, rfl⟩ := mem_planOf_iff.mp hblock
  obtain rfl : t = .breakpoint name rank media := htarget
  rcases List.mem_cons.mp ht with ht | ht
  · contradiction
  · obtain ⟨e, he, heq⟩ := List.mem_map.mp ht
    obtain ⟨rfl, rfl, rfl⟩ := BlockTarget.breakpoint.inj heq
    have hmem := (List.mem_filter.mp he).1
    exact ⟨⟨e.breakpoint, hr.resolve_of_mem hmem, rfl⟩, hr.media_of_mem hmem⟩

/-- No fragment is left out and none is counted twice. -/
lemma sum_fragmentCount_planOf {fs : List Fragment} (hfs : ∀ f ∈ fs, r.check f.target = .ok ()) :
    ((r.planOf .modern fs).map Block.fragmentCount).sum = fs.length := by
  have hcounts : (r.planOf .modern fs).map Block.fragmentCount =
      (((r.blockTargets .modern).filter fun t =>
        !(withKey Fragment.target fs t.toTarget).isEmpty).map
          fun t => withKey Fragment.target fs t.toTarget).map List.length := by
    rw [planOf, List.map_map, List.map_map]
    rfl
  rw [hcounts, ← List.length_flatten,
    ← flatMap_eq_flatten_filter fun t : BlockTarget => withKey Fragment.target fs t.toTarget,
    ← List.flatMap_map, r.map_toTarget_blockTargets, ← hr.stableSort_height hfs, stableSort,
    List.length_mergeSort]

lemma arranges_planOf {fs : List Fragment} (hfs : ∀ f ∈ fs, r.check f.target = .ok ()) :
    r.Arranges fs (r.planOf .modern fs) where
  nodup_targets := by
    rw [map_toTarget_planOf]
    exact hr.targets_nodup.filter _
  mem_targets_iff := by
    intro t
    rw [map_toTarget_planOf, List.mem_filter, ← withKey_ne_nil_iff]
    constructor
    · rintro ⟨-, hne⟩
      simpa using hne
    · intro hne
      obtain ⟨f, hf, rfl⟩ := withKey_ne_nil_iff.mp hne
      exact ⟨hr.mem_targets_of_check (hfs f hf), by simpa using hne⟩
  universal_first := fun _ hblock huniversal => r.universal_first_of_planOf fs hblock huniversal
  ranks_ascending := hr.ranks_planOf_ascending fs
  target_eq := fun _ hblock _ _ _ htarget => hr.target_of_mem_planOf hblock htarget
  fragmentCount_pos := by
    intro block hblock
    obtain ⟨t, -, hne, rfl⟩ := mem_planOf_iff.mp hblock
    exact List.length_pos_iff.mpr hne
  fragmentCount_eq := by
    intro block hblock
    obtain ⟨t, -, -, rfl⟩ := mem_planOf_iff.mp hblock
    rfl
  body_eq := by
    intro block hblock
    obtain ⟨t, -, -, rfl⟩ := mem_planOf_iff.mp hblock
    rfl
  sum_fragmentCount := hr.sum_fragmentCount_planOf hfs

/-! ### Old browsers -/

lemma keepsForOldBrowsers_of_mem {e : Entry} (he : e ∈ r.entries) :
    r.keepsForOldBrowsers e.blockTarget = r.isLegacy e.breakpoint := by
  rw [Bool.eq_iff_iff]
  simp only [keepsForOldBrowsers, Entry.blockTarget, legacyBreakpoints, breakpoints,
    List.any_eq_true, List.mem_filter, List.mem_map, decide_eq_true_eq]
  constructor
  · rintro ⟨_, ⟨⟨e', he', rfl⟩, hlegacy⟩, hname⟩
    rwa [hr.eq_of_name he' he hname] at hlegacy
  · intro hlegacy
    exact ⟨e.breakpoint, ⟨⟨e, he, rfl⟩, hlegacy⟩, rfl⟩

lemma blockTargets_legacy :
    r.blockTargets .legacy = (r.blockTargets .modern).filter r.keepsForOldBrowsers := by
  simp only [blockTargets, includes, List.filter_true]
  rw [List.filter_cons_of_pos rfl, List.filter_map]
  congr 2
  apply List.filter_congr
  intro e he
  exact (hr.keepsForOldBrowsers_of_mem he).symm

lemma planOf_legacy (fs : List Fragment) :
    r.planOf .legacy fs =
      (r.planOf .modern fs).filter fun block => r.keepsForOldBrowsers block.target := by
  rw [planOf, hr.blockTargets_legacy, List.filter_filter, planOf, List.filter_map,
    List.filter_filter]
  simp only [Function.comp_apply, Block.ofFragments, Bool.and_comm]

end Registry.WellFormed

/-- The blocks of a compilation arrange its history. The stylesheet for old browsers is made
of the same blocks, without those that old browsers are not given. -/
theorem plan_arranges {r : Registry} (hr : r.Reachable) {c : Compilation}
    {log log' : WarningLog} {fs : List Fragment}
    (h : (Compilation.start r).submitAll log fs = .ok (c, log')) :
    r.Arranges fs (c.plan .modern) ∧
      ((c.plan .modern).map Block.fragmentCount).sum = c.submitted ∧
      c.plan .legacy = (c.plan .modern).filter fun block => r.keepsForOldBrowsers block.target := by
  have hc := Compilation.holds_of_submitAll h
  have harranges := hr.wellFormed.arranges_planOf hc.registered
  rw [hc.plan_eq, hc.plan_eq, hc.submitted]
  exact ⟨harranges, harranges.sum_fragmentCount, hr.wellFormed.planOf_legacy fs⟩

theorem plan_of_mixedFragments :
    ∃ c log, (Compilation.start .mixed).submitAll {} mixedFragments = .ok (c, log) ∧
      ((c.plan .modern).map Block.fragmentCount).sum = 7 ∧
      (c.plan .legacy).map (·.body) = ["\nd", "b\nf", "a\ne"] := by
  have hsubmit : (Compilation.start .mixed).submitAll {} mixedFragments = .ok (_, _) := rfl
  obtain ⟨-, hsum, hlegacy⟩ := plan_arranges Registry.mixed_reachable hsubmit
  refine ⟨_, _, hsubmit, hsum, ?_⟩
  rw [hlegacy]
  decide +kernel

end MediaSheets
