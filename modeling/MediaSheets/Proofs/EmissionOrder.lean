import MediaSheets.Proofs.InversionHistory

/-!
# Inversions and the order of emission

`Compilation.emitted` reads the fragments off the blocks of a plan. They come by height
first and by position second, so a component's own fragments keep their positions in order
exactly when their heights never fall. Inversions are the places where they do.
-/

namespace MediaSheets

/-- The fragments of a compilation block by block, each bucket in its own order. -/
def Compilation.emitted (c : Compilation) : List Filed :=
  (c.plan .modern).flatMap fun block => c.bucket block.target.toTarget

/-- A component has rules in a block for one target and in a later block for another. -/
def Compilation.EmitsBefore (c : Compilation) (component : String) (t u : Target) : Prop :=
  ∃ (j k : Nat) (b b' : Block), j < k ∧
    (c.plan .modern)[j]? = some b ∧ (c.plan .modern)[k]? = some b' ∧
    b.target.toTarget = t ∧ b'.target.toTarget = u ∧
    component ∈ b.components ∧ component ∈ b'.components

/-- A component's fragments are emitted in the order in which they were submitted. -/
def Compilation.KeepsOrder (c : Compilation) (component : String) : Prop :=
  (c.emitted.filter fun a => a.fragment.component = component).Pairwise
    fun a b => a.position < b.position

/-! ### Orders by rank and position -/

section Lexicographic

variable {α κ : Type} [LinearOrder κ]

lemma exists_lt_of_ascending {rank : α → κ} {l : List α}
    (hl : l.Pairwise fun a b => rank a < rank b) {a b : α} (ha : a ∈ l) (hb : b ∈ l)
    (hlt : rank a < rank b) : ∃ j k : Nat, j < k ∧ l[j]? = some a ∧ l[k]? = some b := by
  obtain ⟨j, hj, rfl⟩ := List.getElem_of_mem ha
  obtain ⟨k, hk, rfl⟩ := List.getElem_of_mem hb
  refine ⟨j, k, ?_, List.getElem?_eq_getElem hj, List.getElem?_eq_getElem hk⟩
  rcases lt_trichotomy j k with hjk | rfl | hkj
  · exact hjk
  · exact absurd hlt (lt_irrefl _)
  · exact absurd (List.pairwise_iff_getElem.mp hl k j hk hj hkj) hlt.not_gt

/-- What is ordered by rank first and position second is in order of position exactly when
no rank falls from one position to a later one. -/
lemma pairwise_position_iff {rank : α → κ} {position : α → Nat} {l : List α}
    (hl : l.Pairwise fun a b => rank a < rank b ∨ rank a = rank b ∧ position a < position b)
    (hposition : ∀ a ∈ l, ∀ b ∈ l, position a = position b → a = b) :
    l.Pairwise (fun a b => position a < position b) ↔
      ∀ a ∈ l, ∀ b ∈ l, position a < position b → rank a ≤ rank b := by
  constructor
  · intro hsorted a ha b hb
    have hforth : l.Pairwise fun a b => position a < position b → rank a ≤ rank b := by
      refine hl.imp ?_
      rintro a b hab -
      rcases hab with hab | hab
      · exact hab.le
      · exact hab.1.le
    have hback : l.Pairwise (flip fun a b => position a < position b → rank a ≤ rank b) :=
      hsorted.imp fun hlt hgt => absurd hgt hlt.not_gt
    exact hforth.forall_of_forall_of_flip (fun _ _ _ => le_rfl) hback ha hb
  · intro hmono
    refine hl.imp_of_mem ?_
    intro a b ha hb hab
    rcases hab with hab | hab
    · rcases lt_trichotomy (position a) (position b) with hlt | heq | hgt
      · exact hlt
      · rw [hposition a ha b hb heq] at hab
        exact absurd hab (lt_irrefl _)
      · exact absurd hab (hmono b hb a ha hgt).not_gt
    · exact hab.2

end Lexicographic

/-! ### Filed fragments -/

lemma mem_filedHistory_getElem? {fs : List Fragment} {a : Filed} (ha : a ∈ filedHistory fs) :
    fs[a.position]? = some a.fragment := by
  obtain ⟨⟨f, position⟩, hf, rfl⟩ := List.mem_map.mp ha
  exact List.mem_zipIdx_iff_getElem?.mp hf

lemma exists_filed_of_getElem? {fs : List Fragment} {i : Nat} {f : Fragment}
    (hf : fs[i]? = some f) : ∃ a ∈ filedHistory fs, a.fragment = f ∧ a.position = i :=
  ⟨_, List.mem_map.mpr ⟨(f, i), List.mem_zipIdx_iff_getElem?.mpr hf, rfl⟩, rfl, rfl⟩

namespace Compilation.Holds

variable {c : Compilation} {r : Registry} {fs : List Fragment} (hc : c.Holds r fs)
include hc

/-- Reading off the blocks is a stable sort of what is filed. -/
lemma emitted_eq_flatMap :
    c.emitted = r.targets.flatMap (withKey Filed.target (filedHistory fs)) := by
  have hbucket : c.bucket = withKey Filed.target (filedHistory fs) := funext hc.bucket
  rw [emitted, plan_eq_map, hc.registry, List.flatMap_map, ← r.map_toTarget_blockTargets,
    List.flatMap_map, flatMap_eq_flatten_filter (fun t : BlockTarget => withKey _ _ t.toTarget),
    ← hbucket, List.flatMap_def]
  rfl

/-- Heights decide the order of emission, and positions do among equal heights. -/
lemma emitted_pairwise (hr : r.WellFormed) :
    c.emitted.Pairwise fun a b => r.height a.target < r.height b.target ∨
      r.height a.target = r.height b.target ∧ a.position < b.position := by
  rw [hc.emitted_eq_flatMap, List.pairwise_flatMap]
  constructor
  · intro t _
    have hbucket : (withKey Filed.target (filedHistory fs) t).Pairwise
        fun a b => a.position < b.position := (positions_ascending fs).filter _
    refine hbucket.imp_of_mem ?_
    intro a b ha hb hlt
    rw [(mem_withKey.mp ha).2, (mem_withKey.mp hb).2]
    exact .inr ⟨rfl, hlt⟩
  · refine hr.targets_ascending.imp ?_
    intro t u hlt a ha b hb
    rw [(mem_withKey.mp ha).2, (mem_withKey.mp hb).2]
    exact .inl hlt

/-- Each fragment is emitted. -/
lemma mem_emitted_iff (hr : r.WellFormed) {a : Filed} : a ∈ c.emitted ↔ a ∈ filedHistory fs := by
  rw [hc.emitted_eq_flatMap, List.mem_flatMap]
  constructor
  · rintro ⟨t, -, ha⟩
    exact (mem_withKey.mp ha).1
  · intro ha
    have hmem : a.fragment ∈ fs := by
      rw [← map_fragment_filedHistory fs]
      exact List.mem_map_of_mem ha
    exact ⟨a.target, hr.mem_targets_of_check (hc.registered _ hmem), mem_withKey.mpr ⟨ha, rfl⟩⟩

/-- The blocks of a plan come by strictly ascending heights. -/
lemma plan_ascending (hr : r.WellFormed) :
    (c.plan .modern).Pairwise
      fun b b' => r.height b.target.toTarget < r.height b'.target.toTarget := by
  have htargets := hr.targets_ascending
  rw [← r.map_toTarget_blockTargets, List.pairwise_map] at htargets
  rw [plan_eq_map, hc.registry, List.pairwise_map]
  exact htargets.filter _

/-- The target of a submitted fragment has a block, which lists its component. -/
lemma exists_block (hr : r.WellFormed) {f : Fragment} (hf : f ∈ fs) :
    ∃ b ∈ c.plan .modern, b.target.toTarget = f.target ∧ f.component ∈ b.components := by
  have htarget := hr.mem_targets_of_check (hc.registered f hf)
  rw [← r.map_toTarget_blockTargets] at htarget
  obtain ⟨t, ht, htf⟩ := List.mem_map.mp htarget
  have hfiled : f ∈ (c.bucket f.target).map Filed.fragment := by
    rw [hc.bucket, map_fragment_withKey]
    exact mem_withKey.mpr ⟨hf, rfl⟩
  obtain ⟨a, ha, haf⟩ := List.mem_map.mp hfiled
  refine ⟨.ofBucket t (c.bucket t.toTarget), ?_, htf, ?_⟩
  · rw [plan_eq_map, hc.registry]
    refine List.mem_map_of_mem (List.mem_filter.mpr ⟨ht, ?_⟩)
    have hne : c.bucket f.target ≠ [] := List.ne_nil_of_mem ha
    simpa [htf] using hne
  · rw [Block.ofBucket, mem_distinct, htf, ← haf]
    rw [← haf] at ha
    exact List.mem_map_of_mem ha

/-- A component's fragments are emitted in order of submission exactly when their heights
never fall from one submission to a later one. -/
lemma keepsOrder_iff (hr : r.WellFormed) (component : String) :
    c.KeepsOrder component ↔ ∀ a ∈ filedHistory fs, ∀ b ∈ filedHistory fs,
      a.fragment.component = component → b.fragment.component = component →
        a.position < b.position → r.height a.target ≤ r.height b.target := by
  have hmem : ∀ a, a ∈ c.emitted.filter (fun a => a.fragment.component = component) ↔
      a ∈ filedHistory fs ∧ a.fragment.component = component := by
    intro a
    rw [List.mem_filter, hc.mem_emitted_iff hr, decide_eq_true_eq]
  rw [KeepsOrder, pairwise_position_iff ((hc.emitted_pairwise hr).filter _)]
  · constructor
    · intro hmono a ha b hb hac hbc
      exact hmono a ((hmem a).mpr ⟨ha, hac⟩) b ((hmem b).mpr ⟨hb, hbc⟩)
    · intro hmono a ha b hb
      rw [hmem] at ha hb
      exact hmono a ha.1 b hb.1 ha.2 hb.2
  · intro a ha b hb heq
    rw [hmem] at ha hb
    exact eq_of_position ha.1 hb.1 heq

end Compilation.Holds

/-! ### Inversions -/

lemma Registry.inversions_eq_nil_iff (r : Registry) {fs : List Fragment} :
    r.inversions fs = [] ↔ ∀ a ∈ filedHistory fs, ∀ b ∈ filedHistory fs,
      a.fragment.component = b.fragment.component → a.position < b.position →
        r.height a.target ≤ r.height b.target := by
  rw [List.eq_nil_iff_forall_not_mem]
  constructor
  · intro hnone a ha b hb hcomponent hlt
    by_contra hfall
    obtain ⟨v, hv, -⟩ := r.exists_inversion_of_pair hlt (mem_filedHistory_getElem? ha)
      (mem_filedHistory_getElem? hb) hcomponent (not_le.mp hfall)
    exact hnone v hv
  · intro hmono v hv
    obtain ⟨i, j, f, g, hij, hi, hj, hf, hg, hearlier, hlater, hlt⟩ :=
      r.exists_pair_of_inversion hv
    obtain ⟨a, ha, rfl, rfl⟩ := exists_filed_of_getElem? hi
    obtain ⟨b, hb, rfl, rfl⟩ := exists_filed_of_getElem? hj
    have hle := hmono a ha b hb (hf.trans hg.symm) hij
    rw [Filed.target, Filed.target, hearlier, hlater] at hle
    exact hle.not_gt hlt

/-- Both targets of an inversion have blocks that list its component, the later target
first. There are no inversions exactly when each component's fragments are emitted in the
order in which they were submitted. -/
theorem inversions_agree_with_emission {r : Registry} (hr : r.Reachable) {c : Compilation}
    {log log' : WarningLog} {fs : List Fragment}
    (h : (Compilation.start r).submitAll log fs = .ok (c, log')) :
    (∀ v ∈ c.inversions, c.EmitsBefore v.component v.later v.earlier) ∧
      (c.inversions = [] ↔ ∀ component, c.KeepsOrder component) := by
  have hc := Compilation.holds_of_submitAll h
  have hw := hr.wellFormed
  rw [Compilation.inversions_of_submitAll h]
  constructor
  · intro v hv
    obtain ⟨i, j, f, g, -, hi, hj, hf, hg, hearlier, hlater, hlt⟩ := r.exists_pair_of_inversion hv
    obtain ⟨b, hb, hbt, hbc⟩ := hc.exists_block hw (List.mem_of_getElem? hj)
    obtain ⟨b', hb', hbt', hbc'⟩ := hc.exists_block hw (List.mem_of_getElem? hi)
    rw [hlater] at hbt
    rw [hearlier] at hbt'
    rw [hg] at hbc
    rw [hf] at hbc'
    have hheights : r.height b.target.toTarget < r.height b'.target.toTarget := by
      rw [hbt, hbt']
      exact hlt
    obtain ⟨m, n, hmn, hm, hn⟩ := exists_lt_of_ascending (hc.plan_ascending hw) hb hb' hheights
    exact ⟨m, n, b, b', hmn, hm, hn, hbt, hbt', hbc, hbc'⟩
  · rw [r.inversions_eq_nil_iff]
    constructor
    · intro hmono component
      rw [hc.keepsOrder_iff hw]
      intro a ha b hb hac hbc
      exact hmono a ha b hb (hac.trans hbc.symm)
    · intro hordered a ha b hb hab
      exact (hc.keepsOrder_iff hw _).mp (hordered _) a ha b hb rfl hab.symm

theorem emission_of_mixedFragments :
    ∃ c log, (Compilation.start .mixed).submitAll {} mixedFragments = .ok (c, log) ∧
      c.inversions ≠ [] ∧
      ∀ v ∈ c.inversions, c.EmitsBefore v.component v.later v.earlier := by
  have hsubmit : (Compilation.start .mixed).submitAll {} mixedFragments = .ok (_, _) := rfl
  have hagree := inversions_agree_with_emission Registry.mixed_reachable hsubmit
  refine ⟨_, _, hsubmit, ?_, hagree.1⟩
  intro hnone
  have hkeeps := hagree.2.mp hnone "card"
  unfold Compilation.KeepsOrder at hkeeps
  revert hkeeps
  decide

end MediaSheets
