import MediaSheets.Plan
import MediaSheets.Proofs.ReachableRegistry
import MediaSheets.Proofs.SubmissionHistory
import Mathlib.Order.WithBot

/-!
# The order of blocks

`Registry.height` is the rank of a target, with universal rules below all ranks. The
targets of a registry have strictly ascending heights, and a plan goes through them in
this order. Reading the buckets of the blocks one after another is therefore a stable
sort of the history by heights.
-/

namespace MediaSheets

instance int32LinearOrder : LinearOrder Int32 where
  le_refl := Int32.le_refl
  le_trans _ _ _ := Int32.le_trans
  le_antisymm _ _ := Int32.le_antisymm
  le_total := Int32.le_total
  lt_iff_le_not_ge a b := by
    rw [Int32.not_le]
    exact ⟨fun h => ⟨Int32.le_of_lt h, h⟩, fun h => h.2⟩
  toDecidableLE := inferInstance
  toDecidableLT := inferInstance
  toDecidableEq := inferInstance

/-- The rank of a target. Universal rules lie below all ranks. -/
def Registry.height (r : Registry) : Target → WithBot Int32
  | .universal => ⊥
  | .breakpoint name =>
    match r.resolve name with
    | .ok b => b.rank
    | .error _ => ⊥

/-- The target whose rules a block holds. -/
def BlockTarget.toTarget (t : BlockTarget) : Target := .ofName? t.name?

/-- What the block of a registered breakpoint applies to. -/
def Entry.blockTarget (e : Entry) : BlockTarget :=
  .breakpoint e.breakpoint.name e.breakpoint.rank e.media

/-- What the blocks of a plan can apply to, in the order of the plan. -/
def Registry.blockTargets (r : Registry) (mode : Mode) : List BlockTarget :=
  .universal :: (r.entries.filter fun e => r.includes mode e.breakpoint).map Entry.blockTarget

/-- The universal target and all registered breakpoints by ascending rank. -/
def Registry.targets (r : Registry) : List Target :=
  .universal :: r.entries.map fun e => .breakpoint e.breakpoint.name

lemma Registry.map_toTarget_blockTargets (r : Registry) :
    (r.blockTargets .modern).map BlockTarget.toTarget = r.targets := by
  simp only [blockTargets, targets, includes, List.filter_true, List.map_cons, List.map_map]
  rfl

/-! ### Heights -/

namespace Registry.WellFormed

variable {r : Registry} (hr : r.WellFormed)
include hr

lemma height_of_mem {e : Entry} (he : e ∈ r.entries) :
    r.height (.breakpoint e.breakpoint.name) = e.breakpoint.rank := by
  simp only [height, hr.resolve_of_mem he]

/-- Targets come in strictly ascending order of their heights. -/
lemma targets_ascending : r.targets.Pairwise fun t u => r.height t < r.height u := by
  refine List.pairwise_cons.mpr ⟨?_, List.pairwise_map.mpr ?_⟩
  · intro t ht
    obtain ⟨e, he, rfl⟩ := List.mem_map.mp ht
    rw [hr.height_of_mem he]
    exact WithBot.bot_lt_coe _
  · refine hr.ascending.imp_of_mem ?_
    intro e e' he he' hlt
    rw [hr.height_of_mem he, hr.height_of_mem he', WithBot.coe_lt_coe]
    exact hlt

lemma targets_nodup : r.targets.Nodup := by
  refine hr.targets_ascending.imp ?_
  rintro t _ hlt rfl
  exact lt_irrefl _ hlt

lemma mem_targets_of_check {t : Target} (ht : r.check t = .ok ()) : t ∈ r.targets := by
  cases t with
  | universal => exact List.mem_cons_self
  | breakpoint name =>
    obtain ⟨e, he, rfl⟩ := hr.contains_iff.mp (check_eq_ok_iff.mp ht name rfl)
    exact List.mem_cons_of_mem _ (List.mem_map.mpr ⟨e, he, rfl⟩)

/-- Sorting by heights puts together what has one target. -/
lemma stableSort_height {α : Type} {target : α → Target} {l : List α}
    (hl : ∀ a ∈ l, r.check (target a) = .ok ()) :
    stableSort (r.height ∘ target) l = r.targets.flatMap (withKey target l) :=
  stableSort_eq_flatMap hr.targets_ascending fun a ha => hr.mem_targets_of_check (hl a ha)

end Registry.WellFormed

/-! ### Plans -/

namespace Compilation

lemma filterMap_blockOf? (c : Compilation) (mode : Mode) (entries : List Entry) :
    entries.filterMap (c.blockOf? mode) =
      (((entries.filter fun e => c.registry.includes mode e.breakpoint).map
        Entry.blockTarget).filter fun t => !(c.bucket t.toTarget).isEmpty).map
          fun t => .ofBucket t (c.bucket t.toTarget) := by
  induction entries with
  | nil => rfl
  | cons e entries ih =>
    have htarget : e.blockTarget.toTarget = .breakpoint e.breakpoint.name := rfl
    rw [List.filterMap_cons, ih]
    cases hmode : c.registry.includes mode e.breakpoint with
    | false => simp [blockOf?, hmode]
    | true =>
      cases hbucket : c.bucket (.breakpoint e.breakpoint.name) with
      | nil => simp [blockOf?, Block.ofBucket?, hmode, htarget, hbucket]
      | cons filed bucket =>
        simp [blockOf?, Block.ofBucket?, hmode, htarget, hbucket]
        rfl

/-- A plan holds one block for each of its targets that has fragments. -/
lemma plan_eq_map (c : Compilation) (mode : Mode) :
    c.plan mode =
      ((c.registry.blockTargets mode).filter fun t => !(c.bucket t.toTarget).isEmpty).map
        fun t => .ofBucket t (c.bucket t.toTarget) := by
  have htarget : BlockTarget.universal.toTarget = .universal := rfl
  rw [plan, filterMap_blockOf?, Registry.blockTargets]
  cases hbucket : c.bucket .universal with
  | nil => simp [Block.ofBucket?, htarget, hbucket]
  | cons filed bucket => simp [Block.ofBucket?, htarget, hbucket]

end Compilation

end MediaSheets
