import MediaSheets.Proofs.PlanHistory
import Mathlib.Data.List.Sort

/-!
# Plans of joined histories

When fragments are submitted after others, the plan is made of the two plans that either part
has alone: `JoinsPlans` says how, and leaves no choice. Targets of one part alone keep their
blocks, and blocks for one target become one. A single fragment touches the block of its own
target alone.
-/

namespace MediaSheets

/-- What two blocks for one target become when the fragments of the first come first. -/
def Block.join (first second : Block) : Block where
  target := first.target
  body := first.body ++ "\n" ++ second.body
  components := first.components ++ second.components.filter (· ∉ first.components)
  fragmentCount := first.fragmentCount + second.fragmentCount

/-- A plan is made of two plans whose fragments were submitted one part after the other. -/
structure JoinsPlans (first second whole : List Block) : Prop where
  mem_targets_iff : ∀ t, t ∈ whole.map Block.target ↔
    t ∈ first.map Block.target ∨ t ∈ second.map Block.target
  first_alone : ∀ a ∈ first, a.target ∉ second.map Block.target → a ∈ whole
  second_alone : ∀ b ∈ second, b.target ∉ first.map Block.target → b ∈ whole
  both : ∀ a ∈ first, ∀ b ∈ second, a.target = b.target → a.join b ∈ whole
  ascending : whole.Pairwise fun a b => a.height < b.height

/-! ### Joined plans -/

namespace JoinsPlans

variable {first second whole : List Block}

/-- A plan in strictly ascending order has one block for a target. -/
lemma eq_of_target (h : whole.Pairwise fun a b => a.height < b.height) {a b : Block}
    (ha : a ∈ whole) (hb : b ∈ whole) (htarget : a.target = b.target) : a = b := by
  have hheight : a.height = b.height := by rw [Block.height, htarget, Block.height]
  exact List.inj_on_of_nodup_map (List.pairwise_map.mpr (h.imp ne_of_lt)) ha hb hheight

lemma mem_iff (h : JoinsPlans first second whole) {block : Block} :
    block ∈ whole ↔ (block ∈ first ∧ block.target ∉ second.map Block.target) ∨
      (block ∈ second ∧ block.target ∉ first.map Block.target) ∨
      ∃ a ∈ first, ∃ b ∈ second, a.target = b.target ∧ block = a.join b := by
  constructor
  · intro hblock
    -- what either part has for the target of the block decides which clause gives the block
    have hother : ∀ other ∈ whole, other.target = block.target → block = other :=
      fun other hother htarget => eq_of_target h.ascending hblock hother htarget.symm
    by_cases hfirst : block.target ∈ first.map Block.target
    · obtain ⟨a, ha, hat⟩ := List.mem_map.mp hfirst
      by_cases hsecond : block.target ∈ second.map Block.target
      · obtain ⟨b, hb, hbt⟩ := List.mem_map.mp hsecond
        have htargets : a.target = b.target := hat.trans hbt.symm
        exact .inr (.inr ⟨a, ha, b, hb, htargets, hother _ (h.both a ha b hb htargets) hat⟩)
      · have halone : a.target ∉ second.map Block.target := hat ▸ hsecond
        obtain rfl := hother a (h.first_alone a ha halone) hat
        exact .inl ⟨ha, hsecond⟩
    · have hsecond : block.target ∈ second.map Block.target :=
        ((h.mem_targets_iff _).mp (List.mem_map_of_mem hblock)).resolve_left hfirst
      obtain ⟨b, hb, hbt⟩ := List.mem_map.mp hsecond
      have halone : b.target ∉ first.map Block.target := hbt ▸ hfirst
      obtain rfl := hother b (h.second_alone b hb halone) hbt
      exact .inr (.inl ⟨hb, hfirst⟩)
  · rintro (⟨ha, halone⟩ | ⟨hb, halone⟩ | ⟨a, ha, b, hb, htargets, rfl⟩)
    · exact h.first_alone _ ha halone
    · exact h.second_alone _ hb halone
    · exact h.both a ha b hb htargets

/-- Two plans can be joined in one way only. -/
lemma unique {whole' : List Block} (h : JoinsPlans first second whole)
    (h' : JoinsPlans first second whole') : whole' = whole := by
  have hirrefl : Std.Irrefl fun a b : Block => a.height < b.height := ⟨fun a => lt_irrefl a.height⟩
  apply h'.ascending.eq_of_mem_iff h.ascending
  intro block
  rw [h'.mem_iff, h.mem_iff]

end JoinsPlans

/-! ### Joined histories -/

lemma joinedText_append {fs gs : List Fragment} (hfs : fs ≠ []) (hgs : gs ≠ []) :
    joinedText (fs ++ gs) = joinedText fs ++ "\n" ++ joinedText gs := by
  rw [joinedText, List.map_append, String.intercalate_append_of_ne_nil (by simpa using hfs)
    (by simpa using hgs), joinedText, joinedText]

lemma Block.ofFragments_append (t : BlockTarget) {fs gs : List Fragment} (hfs : fs ≠ [])
    (hgs : gs ≠ []) :
    ofFragments t (fs ++ gs) = (ofFragments t fs).join (ofFragments t gs) := by
  simp only [ofFragments, join, joinedText_append hfs hgs, List.map_append, distinct_append,
    mem_distinct, List.length_append]

namespace Registry

variable {r : Registry} {mode : Mode} {fs gs : List Fragment}

lemma mem_targets_planOf_iff {t : BlockTarget} :
    t ∈ (r.planOf mode fs).map Block.target ↔
      t ∈ r.blockTargets mode ∧ withKey Fragment.target fs t.toTarget ≠ [] := by
  rw [List.mem_map]
  constructor
  · rintro ⟨block, hblock, rfl⟩
    obtain ⟨t, ht, hne, rfl⟩ := mem_planOf_iff.mp hblock
    exact ⟨ht, hne⟩
  · rintro ⟨ht, hne⟩
    exact ⟨_, mem_planOf_iff.mpr ⟨t, ht, hne, rfl⟩, rfl⟩

/-- A block depends on nothing but the fragments for its target. -/
lemma mem_planOf_of_withKey_eq {block : Block} (hblock : block ∈ r.planOf mode fs)
    (h : withKey Fragment.target gs block.target.toTarget =
      withKey Fragment.target fs block.target.toTarget) : block ∈ r.planOf mode gs := by
  obtain ⟨t, ht, hne, rfl⟩ := mem_planOf_iff.mp hblock
  exact mem_planOf_iff.mpr ⟨t, ht, ne_of_eq_of_ne h hne, congrArg (Block.ofFragments t) h.symm⟩

/-- A plan without a block for a target that another plan has one for has no fragments there. -/
lemma withKey_eq_nil_of_alone {block : Block} (hblock : block ∈ r.planOf mode fs)
    (halone : block.target ∉ (r.planOf mode gs).map Block.target) :
    withKey Fragment.target gs block.target.toTarget = [] := by
  obtain ⟨t, ht, -, rfl⟩ := mem_planOf_iff.mp hblock
  by_contra hne
  exact halone (mem_targets_planOf_iff.mpr ⟨ht, hne⟩)

/-- The plan of a history that goes on is joined of the plans of its parts. -/
lemma WellFormed.joinsPlans (hr : r.WellFormed) (mode : Mode) (fs gs : List Fragment) :
    JoinsPlans (r.planOf mode fs) (r.planOf mode gs) (r.planOf mode (fs ++ gs)) where
  mem_targets_iff := by
    intro t
    simp only [mem_targets_planOf_iff, withKey_append, ne_eq, List.append_eq_nil_iff]
    tauto
  first_alone := by
    intro a ha halone
    apply mem_planOf_of_withKey_eq ha
    rw [withKey_append, withKey_eq_nil_of_alone ha halone, List.append_nil]
  second_alone := by
    intro b hb halone
    apply mem_planOf_of_withKey_eq hb
    rw [withKey_append, withKey_eq_nil_of_alone hb halone, List.nil_append]
  both := by
    intro a ha b hb htargets
    obtain ⟨t, ht, hne, rfl⟩ := mem_planOf_iff.mp ha
    obtain ⟨u, -, hne', rfl⟩ := mem_planOf_iff.mp hb
    obtain rfl : t = u := htargets
    refine mem_planOf_iff.mpr ⟨t, ht, ?_, ?_⟩
    · rw [withKey_append]
      exact List.append_ne_nil_of_left_ne_nil hne _
    · rw [withKey_append, Block.ofFragments_append t hne hne']
  ascending := hr.planOf_ascending mode (fs ++ gs)

/-- Blocks for other targets stay as they were, and in their order. -/
lemma filter_planOf_append_singleton (r : Registry) (mode : Mode) (fs : List Fragment)
    (f : Fragment) :
    ((r.planOf mode (fs ++ [f])).filter fun block => block.target.toTarget ≠ f.target) =
      (r.planOf mode fs).filter fun block => block.target.toTarget ≠ f.target := by
  apply r.filter_planOf_congr mode (fun t => t.toTarget ≠ f.target)
  intro t _ ht
  exact withKey_append_of_ne (Ne.symm (of_decide_eq_true ht)) fs

end Registry

/-- What is submitted later is joined to the plan there is already, and a single fragment
leaves all blocks for other targets as they were. -/
theorem plan_of_joined {r : Registry} (hr : r.Reachable) {c₁ c₂ : Compilation}
    {log₁ log₁' log₂ log₂' : WarningLog} {fs gs : List Fragment}
    (hfs : (Compilation.start r).submitAll log₁ fs = .ok (c₁, log₁'))
    (hgs : (Compilation.start r).submitAll log₂ gs = .ok (c₂, log₂')) (log : WarningLog) :
    (∃ c log', c₁.submitAll log gs = .ok (c, log') ∧ ∀ mode,
      JoinsPlans (c₁.plan mode) (c₂.plan mode) (c.plan mode) ∧
      ∀ whole, JoinsPlans (c₁.plan mode) (c₂.plan mode) whole → whole = c.plan mode) ∧
    ∀ f c' log', c₁.submit log f = .ok (c', log') → ∀ mode,
      ((c'.plan mode).filter fun block => block.target.toTarget ≠ f.target) =
        (c₁.plan mode).filter fun block => block.target.toTarget ≠ f.target := by
  have hc₁ := Compilation.holds_of_submitAll hfs
  have hc₂ := Compilation.holds_of_submitAll hgs
  constructor
  · have haccepted : ∀ g ∈ gs, c₁.registry.check g.target = .ok () := by
      rw [hc₁.registry]
      exact hc₂.registered
    obtain ⟨c, log', hsubmit⟩ := Compilation.exists_submitAll haccepted log
    have hc := hc₁.submitAll hsubmit
    refine ⟨c, log', hsubmit, fun mode => ?_⟩
    have hjoins : JoinsPlans (c₁.plan mode) (c₂.plan mode) (c.plan mode) := by
      rw [hc₁.plan_eq, hc₂.plan_eq, hc.plan_eq]
      exact hr.wellFormed.joinsPlans mode fs gs
    exact ⟨hjoins, fun _ hwhole => hjoins.unique hwhole⟩
  · intro f c' log' hsubmit mode
    rw [(hc₁.submit hsubmit).plan_eq, hc₁.plan_eq]
    exact r.filter_planOf_append_singleton mode fs f

/-- The mixed fragments are cut after the third one, so that the breakpoints have blocks on
both sides, on one side, or on the other. -/
theorem plan_of_joined_mixedFragments :
    ∃ c₁ c₂ c l₁ l₂ l, (Compilation.start .mixed).submitAll {} (mixedFragments.take 3) =
        .ok (c₁, l₁) ∧
      (Compilation.start .mixed).submitAll {} (mixedFragments.drop 3) = .ok (c₂, l₂) ∧
      c₁.submitAll l₁ (mixedFragments.drop 3) = .ok (c, l) ∧
      JoinsPlans (c₁.plan .modern) (c₂.plan .modern) (c.plan .modern) ∧
      (c₁.plan .modern).map Block.body = ["b", "c", "a"] ∧
      (c₂.plan .modern).map Block.body = ["\nd", "f", "e"] ∧
      (c.plan .modern).map Block.body = ["\nd", "b\nf", "c", "a\ne"] := by
  have hfs : (Compilation.start .mixed).submitAll {} (mixedFragments.take 3) = .ok (_, _) := rfl
  have hgs : (Compilation.start .mixed).submitAll {} (mixedFragments.drop 3) = .ok (_, _) := rfl
  obtain ⟨⟨c, l, hsubmit, hjoins⟩, -⟩ := plan_of_joined Registry.mixed_reachable hfs hgs _
  have hc := (Compilation.holds_of_submitAll hfs).submitAll hsubmit
  refine ⟨_, _, c, _, _, l, hfs, hgs, hsubmit, (hjoins .modern).1, by decide +kernel,
    by decide +kernel, ?_⟩
  rw [hc.plan_eq]
  decide +kernel

end MediaSheets
