import MediaSheets.Proofs.RegistrationOrder

/-!
# Changes of the cutoff

The cutoff decides which lower bounds on the width old browsers are given, and nothing else.
`Registry.BlockForOldBrowsers` goes through the blocks that a plan for them has, and
`Compilation.Widens` says what comes of it when the cutoff rises.
-/

namespace MediaSheets

/-- Some of the fragments are meant for the breakpoint. -/
def Breakpoint.Used (b : Breakpoint) (fs : List Fragment) : Prop :=
  ∃ f ∈ fs, f.target = .breakpoint b.name

/-- The block that fragments make for a breakpoint with a bound on the width. -/
def Breakpoint.widthBlock (b : Breakpoint) (bound : WidthBound) (fs : List Fragment) : Block :=
  .ofFragments (.breakpoint b.name b.rank (.width bound))
    (withKey Fragment.target fs (.breakpoint b.name))

/-- The blocks that old browsers are given of some fragments. -/
inductive Registry.BlockForOldBrowsers (r : Registry) (fs : List Fragment) : Block → Prop
  | universal (hused : ∃ f ∈ fs, f.target = .universal) :
      BlockForOldBrowsers r fs (.ofFragments .universal (withKey Fragment.target fs .universal))
  | atMost {b : Breakpoint} {px : UInt32} (hb : b ∈ r.breakpoints)
      (hcondition : b.condition = .width (.atMost px)) (hused : b.Used fs) :
      BlockForOldBrowsers r fs (b.widthBlock (.atMost px) fs)
  | atLeast {b : Breakpoint} {px : UInt32} (hb : b ∈ r.breakpoints)
      (hcondition : b.condition = .width (.atLeast px)) (hrank : b.rank ≤ r.cutoff)
      (hused : b.Used fs) : BlockForOldBrowsers r fs (b.widthBlock (.atLeast px) fs)

/-- What becomes of a compilation of fragments when the cutoff of its breakpoints rises. -/
structure Compilation.Widens (bs : List Breakpoint) (fs : List Fragment) (low high : Int32)
    (c c' : Compilation) : Prop where
  modern : c'.modern = c.modern
  inversions : c'.inversions = c.inversions
  sublist : (c.plan .legacy).Sublist (c'.plan .legacy)
  gained_iff : ∀ block, block ∈ c'.plan .legacy ∧ block ∉ c.plan .legacy ↔
    ∃ b ∈ bs, ∃ px, b.condition = .width (.atLeast px) ∧ low < b.rank ∧ b.rank ≤ high ∧
      b.Used fs ∧ block = b.widthBlock (.atLeast px) fs
  atMost : ∀ b ∈ bs, ∀ px, b.condition = .width (.atMost px) → b.Used fs →
    b.widthBlock (.atMost px) fs ∈ c.plan .legacy ∧ b.widthBlock (.atMost px) fs ∈ c'.plan .legacy
  dense : ∀ b ∈ bs, b.kind ≠ .baseWidth → ∀ block, block.target.name? = some b.name →
    block ∉ c.plan .legacy ∧ block ∉ c'.plan .legacy

namespace Registry

/-! ### Plans for old browsers -/

lemma isLegacy_iff {r : Registry} {b : Breakpoint} :
    r.isLegacy b = true ↔ ∃ bound, b.condition = .width bound ∧
      ∀ px, bound = .atLeast px → b.rank ≤ r.cutoff := by
  unfold isLegacy
  cases b.condition with
  | width bound => cases bound <;> simp
  | hiDpi => simp
  | pairedHiDpi base => simp

lemma kind_of_isLegacy {r : Registry} {b : Breakpoint} (h : r.isLegacy b = true) :
    b.kind = .baseWidth := by
  obtain ⟨bound, hcondition, -⟩ := isLegacy_iff.mp h
  rw [Breakpoint.kind, hcondition]
  rfl

lemma Reachable.mem_planOf_legacy_iff {r : Registry} (hr : r.Reachable) {fs : List Fragment}
    {block : Block} : block ∈ r.planOf .legacy fs ↔ r.BlockForOldBrowsers fs block := by
  rw [mem_planOf_iff]
  constructor
  · rintro ⟨t, ht, hne, rfl⟩
    have hused := withKey_ne_nil_iff.mp hne
    rcases List.mem_cons.mp ht with rfl | ht
    · exact .universal hused
    · obtain ⟨e, he, rfl⟩ := List.mem_map.mp ht
      obtain ⟨hmem, hlegacy⟩ := List.mem_filter.mp he
      have hb : e.breakpoint ∈ r.breakpoints := List.mem_map.mpr ⟨e, hmem, rfl⟩
      obtain ⟨bound, hcondition, hrank⟩ := isLegacy_iff.mp hlegacy
      rw [Entry.blockTarget, hr.media_of_width hmem hcondition]
      cases bound with
      | atLeast px => exact .atLeast hb hcondition (hrank px rfl) hused
      | atMost px => exact .atMost hb hcondition hused
  · -- the block of a registered bound on the width that is not above the cutoff
    have hwidth : ∀ b ∈ r.breakpoints, ∀ bound, b.condition = .width bound →
        r.isLegacy b = true → b.Used fs → ∃ t ∈ r.blockTargets .legacy,
          withKey Fragment.target fs t.toTarget ≠ [] ∧
          b.widthBlock bound fs = .ofFragments t (withKey Fragment.target fs t.toTarget) := by
      intro b hb bound hcondition hlegacy hused
      obtain ⟨e, he, rfl⟩ := List.mem_map.mp hb
      have htarget : e.blockTarget ∈ r.blockTargets .legacy :=
        List.mem_cons_of_mem _ (List.mem_map_of_mem (List.mem_filter.mpr ⟨he, hlegacy⟩))
      refine ⟨e.blockTarget, htarget, withKey_ne_nil_iff.mpr hused, ?_⟩
      rw [Breakpoint.widthBlock, ← hr.media_of_width he hcondition]
      rfl
    intro h
    cases h with
    | universal hused =>
      exact ⟨.universal, List.mem_cons_self, withKey_ne_nil_iff.mpr hused, rfl⟩
    | atMost hb hcondition hused =>
      exact hwidth _ hb _ hcondition (isLegacy_iff.mpr ⟨_, hcondition, by simp⟩) hused
    | atLeast hb hcondition hrank hused =>
      exact hwidth _ hb _ hcondition
        (isLegacy_iff.mpr ⟨_, hcondition, fun _ _ => hrank⟩) hused

/-- Old browsers are given the breakpoint that a block for them is named for. -/
lemma BlockForOldBrowsers.isLegacy {r : Registry} (hr : r.WellFormed) {fs : List Fragment}
    {block : Block} (h : r.BlockForOldBrowsers fs block) {b : Breakpoint} (hb : b ∈ r.breakpoints)
    (hname : block.target.name? = some b.name) : r.isLegacy b = true := by
  have hsame : ∀ b' ∈ r.breakpoints, some b'.name = some b.name → b' = b := fun b' hb' heq =>
    List.inj_on_of_nodup_map hr.nodup_names hb' hb (Option.some.inj heq)
  cases h with
  | universal hused => contradiction
  | atMost hb' hcondition hused =>
    obtain rfl := hsame _ hb' hname
    exact isLegacy_iff.mpr ⟨_, hcondition, by simp⟩
  | atLeast hb' hcondition hrank hused =>
    obtain rfl := hsame _ hb' hname
    exact isLegacy_iff.mpr ⟨_, hcondition, fun _ _ => hrank⟩

/-! ### Two cutoffs -/

lemma isLegacy_mono {r : Registry} {high : Int32} (hle : r.cutoff ≤ high) {b : Breakpoint}
    (h : r.isLegacy b = true) : (r.withCutoff high).isLegacy b = true := by
  obtain ⟨bound, hcondition, hrank⟩ := isLegacy_iff.mp h
  exact isLegacy_iff.mpr ⟨bound, hcondition, fun px hpx => le_trans (hrank px hpx) hle⟩

/-- No block is lost, and those that stay keep their order. -/
lemma planOf_legacy_sublist {r : Registry} {high : Int32} (hle : r.cutoff ≤ high)
    (fs : List Fragment) :
    (r.planOf .legacy fs).Sublist ((r.withCutoff high).planOf .legacy fs) := by
  have hentries : (r.entries.filter fun e => r.includes .legacy e.breakpoint).Sublist
      (r.entries.filter fun e => (r.withCutoff high).includes .legacy e.breakpoint) :=
    List.monotone_filter_right _ fun _ hlegacy => isLegacy_mono hle hlegacy
  exact (((hentries.map Entry.blockTarget).cons_cons .universal).filter _).map _

/-- Refused fragments are in no block, so they need not be taken out first. -/
lemma planOf_filter_knows (r : Registry) (mode : Mode) (fs : List Fragment) :
    r.planOf mode (fs.filter fun f => r.Knows f.target) = r.planOf mode fs := by
  apply r.planOf_congr_of_mem mode
  intro t ht
  have hknown : r.Knows t.toTarget := by
    rcases List.mem_cons.mp ht with rfl | ht
    · trivial
    · obtain ⟨e, he, rfl⟩ := List.mem_map.mp ht
      exact ⟨e.breakpoint, List.mem_map.mpr ⟨e, (List.mem_filter.mp he).1, rfl⟩, rfl⟩
  rw [withKey, List.filter_filter, withKey]
  apply List.filter_congr
  intro f _
  by_cases hf : f.target = t.toTarget <;> simp [hf, hknown]

/-- A block comes with a higher cutoff exactly when the rank of its breakpoint is passed. -/
lemma Reachable.gained_iff {r : Registry} (hr : r.Reachable) {high : Int32} {fs : List Fragment}
    {block : Block} :
    (r.withCutoff high).BlockForOldBrowsers fs block ∧ ¬r.BlockForOldBrowsers fs block ↔
      ∃ b ∈ r.breakpoints, ∃ px, b.condition = .width (.atLeast px) ∧ r.cutoff < b.rank ∧
        b.rank ≤ high ∧ b.Used fs ∧ block = b.widthBlock (.atLeast px) fs := by
  constructor
  · rintro ⟨hgained, hlacked⟩
    cases hgained with
    | universal hused => exact absurd (.universal hused) hlacked
    | atMost hb hcondition hused => exact absurd (.atMost hb hcondition hused) hlacked
    | @atLeast b px hb hcondition hrank hused =>
      have hlow : r.cutoff < b.rank :=
        not_le.mp fun hlow => hlacked (.atLeast hb hcondition hlow hused)
      exact ⟨b, hb, px, hcondition, hlow, hrank, hused, rfl⟩
  · rintro ⟨b, hb, px, hcondition, hlow, hrank, hused, rfl⟩
    refine ⟨.atLeast hb hcondition hrank hused, fun hblock => ?_⟩
    obtain ⟨bound, hcondition', hrank'⟩ :=
      isLegacy_iff.mp (hblock.isLegacy hr.wellFormed hb rfl)
    obtain rfl := Condition.width.inj (hcondition'.symm.trans hcondition)
    exact absurd (hrank' px rfl) (not_le.mpr hlow)

lemma Reachable.widens {r : Registry} (hr : r.Reachable) {high : Int32} (hle : r.cutoff ≤ high)
    {bs : List Breakpoint} (hbs : ∀ b, b ∈ r.breakpoints ↔ b ∈ bs) {fs : List Fragment}
    {c c' : Compilation} (hplan : ∀ mode, c.plan mode = r.planOf mode fs)
    (hplan' : ∀ mode, c'.plan mode = (r.withCutoff high).planOf mode fs)
    (hinversions : c'.inversions = c.inversions) : c.Widens bs fs r.cutoff high c' := by
  have hr' := hr.withCutoff high
  have hmem : ∀ block, block ∈ c.plan .legacy ↔ r.BlockForOldBrowsers fs block := by
    intro block
    rw [hplan, hr.mem_planOf_legacy_iff]
  have hmem' : ∀ block,
      block ∈ c'.plan .legacy ↔ (r.withCutoff high).BlockForOldBrowsers fs block := by
    intro block
    rw [hplan', hr'.mem_planOf_legacy_iff]
  constructor
  · rw [Compilation.modern, hplan', Compilation.modern, hplan]
    rfl
  · exact hinversions
  · rw [hplan, hplan']
    exact planOf_legacy_sublist hle fs
  · intro block
    rw [hmem, hmem', hr.gained_iff]
    simp only [hbs]
  · intro b hb px hcondition hused
    have hregistered := (hbs b).mpr hb
    rw [hmem, hmem']
    exact ⟨.atMost hregistered hcondition hused, .atMost hregistered hcondition hused⟩
  · intro b hb hkind block hname
    have hregistered := (hbs b).mpr hb
    rw [hmem, hmem']
    exact ⟨fun h => hkind (kind_of_isLegacy (h.isLegacy hr.wellFormed hregistered hname)),
      fun h => hkind (kind_of_isLegacy (h.isLegacy hr'.wellFormed hregistered hname))⟩

/-- Under a higher cutoff the same breakpoints are registered and the same fragments accepted,
and old browsers are given the lower bounds on the width in between on top. -/
theorem cutoff_widens {low high : Int32} (hle : low ≤ high) {bs : List Breakpoint} {r : Registry}
    (h : (Registry.empty low).registerAll bs = .ok r) (fs : List Fragment)
    (log log' : WarningLog) :
    (Registry.empty high).registerAll bs = .ok (r.withCutoff high) ∧
      ∃ outcomes c c' l l',
        (Compilation.start r).receiveAll log (fs.map .fragment) = (outcomes, c, l) ∧
        (Compilation.start (r.withCutoff high)).receiveAll log' (fs.map .fragment) =
          (outcomes, c', l') ∧
        c.Widens bs fs low high c' := by
  have hr : r.Reachable := (Reachable.empty low).registerAll h
  have hcutoff : r.cutoff = low := cutoff_of_registerAll h
  obtain ⟨outcomes, c, c', l, l', hrun, hrun', hc, hc', hinversions⟩ :=
    hr.exists_runs (hr.withCutoff high) rfl fs log log'
  have hplan : ∀ mode, c.plan mode = r.planOf mode fs := by
    intro mode
    rw [hc.plan_eq, planOf_filter_knows]
  have hplan' : ∀ mode, c'.plan mode = (r.withCutoff high).planOf mode fs := by
    intro mode
    rw [hc'.plan_eq]
    exact planOf_filter_knows (r.withCutoff high) mode fs
  refine ⟨?_, outcomes, c, c', l, l', hrun, hrun', ?_⟩
  · have hregister := registerAll_withCutoff (Registry.empty low) high bs
    rw [h] at hregister
    exact hregister
  · rw [← hcutoff] at hle ⊢
    exact hr.widens hle (fun _ => mem_breakpoints_of_registerAll h) hplan hplan' hinversions

/-- At the rank of a lower bound old browsers are given its block, and just below it they are
not. One of the fragments is refused both times. -/
theorem cutoff_of_mixedBreakpoints :
    ∃ r outcomes c c' l l', (Registry.empty 4).registerAll mixedBreakpoints = .ok r ∧
      (Registry.empty 5).registerAll mixedBreakpoints = .ok (r.withCutoff 5) ∧
      (Compilation.start r).receiveAll {}
        ((⟨"menu", .breakpoint "gone", ""⟩ :: mixedFragments).map .fragment) = (outcomes, c, l) ∧
      (Compilation.start (r.withCutoff 5)).receiveAll {}
        ((⟨"menu", .breakpoint "gone", ""⟩ :: mixedFragments).map .fragment) =
          (outcomes, c', l') ∧
      c'.modern = c.modern ∧
      Breakpoint.widthBlock ⟨"wide", 5, .width (.atLeast 900)⟩ (.atLeast 900) mixedFragments ∈
        c'.plan .legacy ∧
      Breakpoint.widthBlock ⟨"wide", 5, .width (.atLeast 900)⟩ (.atLeast 900) mixedFragments ∉
        c.plan .legacy := by
  have h : (Registry.empty 4).registerAll mixedBreakpoints = .ok _ := rfl
  obtain ⟨h', outcomes, c, c', l, l', hrun, hrun', hwidens⟩ :=
    cutoff_widens (by decide : (4 : Int32) ≤ 5) h
      (⟨"menu", .breakpoint "gone", ""⟩ :: mixedFragments) {} {}
  refine ⟨_, outcomes, c, c', l, l', h, h', hrun, hrun', hwidens.modern, ?_⟩
  rw [hwidens.gained_iff]
  exact ⟨_, by decide, 900, rfl, by decide, by decide,
    ⟨⟨"card", .breakpoint "wide", "a"⟩, by decide, rfl⟩, rfl⟩

end Registry
end MediaSheets
