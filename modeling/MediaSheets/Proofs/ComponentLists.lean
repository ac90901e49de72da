import MediaSheets.Proofs.InversionHistory
import MediaSheets.Proofs.PlanHistory

/-!
# Lists of components

A compilation lists the components that have submitted fragments, and so does each of its blocks
for its own bucket. Both lists are gathered in one pass, `gather`, which keeps what it has not seen:
the first occurrences of what it goes through. The two passes go over different orders, that of all
submissions and that of a bucket; what they have in common is the history.
-/

namespace MediaSheets

section FirstOccurrences

variable {α : Type} [DecidableEq α]

/-- The elements of a list that do not stand anywhere before, in their order. -/
def firstOccurrences (as : List α) : List α :=
  (as.zipIdx.filter fun (a, position) => a ∉ as.take position).map Prod.fst

/-- Adds an element at the end of those seen, unless it is among them. -/
def enlist (seen : List α) (a : α) : List α := if seen.contains a then seen else seen ++ [a]

/-- What one pass over a list has seen at its end. -/
def gather (as : List α) : List α := as.foldl enlist []

lemma firstOccurrences_append_singleton (as : List α) (a : α) :
    firstOccurrences (as ++ [a]) = firstOccurrences as ++ if a ∈ as then [] else [a] := by
  have hkept : as.zipIdx.filter (fun (b, position) => b ∉ (as ++ [a]).take position) =
      as.zipIdx.filter fun (b, position) => b ∉ as.take position := by
    apply List.filter_congr
    rintro ⟨b, position⟩ hb
    have hlt := List.snd_lt_of_mem_zipIdx hb
    have htake : (as ++ [a]).take position = as.take position :=
      List.take_append_of_le_length (by omega)
    simp only [htake]
  rw [firstOccurrences, List.zipIdx_append, List.filter_append, hkept, List.map_append,
    firstOccurrences]
  by_cases ha : a ∈ as
  · simp [ha]
  · simp [ha]

lemma mem_firstOccurrences {as : List α} {a : α} : a ∈ firstOccurrences as ↔ a ∈ as := by
  induction as using List.reverseRecOn with
  | nil => rfl
  | append_singleton as b ih =>
    rw [firstOccurrences_append_singleton, List.mem_append, List.mem_append, ih,
      List.mem_singleton]
    by_cases hb : b ∈ as
    · rw [if_pos hb]
      constructor
      · rintro (ha | ha)
        · exact .inl ha
        · simp at ha
      · rintro (ha | rfl)
        · exact .inl ha
        · exact .inl hb
    · rw [if_neg hb, List.mem_singleton]

/-- One more element is one more step of the pass. -/
lemma enlist_firstOccurrences (as : List α) (a : α) :
    enlist (firstOccurrences as) a = firstOccurrences (as ++ [a]) := by
  rw [enlist, firstOccurrences_append_singleton, List.contains_eq_mem]
  simp only [decide_eq_true_eq, mem_firstOccurrences]
  by_cases ha : a ∈ as
  · rw [if_pos ha, if_pos ha, List.append_nil]
  · rw [if_neg ha, if_neg ha]

lemma foldl_enlist (past as : List α) :
    as.foldl enlist (firstOccurrences past) = firstOccurrences (past ++ as) := by
  induction as generalizing past with
  | nil => rw [List.append_nil, List.foldl_nil]
  | cons a as ih => rw [List.foldl_cons, enlist_firstOccurrences, ih, List.append_assoc]; rfl

theorem gather_eq (as : List α) : gather as = firstOccurrences as := foldl_enlist [] as

theorem distinct_eq_gather (as : List α) : distinct as = gather as := by
  induction as using List.reverseRecOn with
  | nil => rfl
  | append_singleton as a ih =>
    have hstep : gather (as ++ [a]) = enlist (gather as) a := by
      rw [gather, List.foldl_append]
      rfl
    rw [hstep, enlist, ← ih, List.contains_eq_mem]
    simp only [decide_eq_true_eq, mem_distinct]
    by_cases ha : a ∈ as
    · rw [if_pos ha, distinct_append_of_mem ha]
    · rw [if_neg ha, distinct_append_of_not_mem ha]

lemma nodup_gather (as : List α) : (gather as).Nodup := by
  rw [← distinct_eq_gather]
  exact nodup_distinct as

end FirstOccurrences

/-- The components that a compilation and its blocks list, for the history that it files. -/
structure Compilation.ListsComponents (c : Compilation) (fs : List Fragment) : Prop where
  gathered : c.components = gather (c.inSubmissionOrder.map (·.fragment.component))
  components_eq : c.components = firstOccurrences (fs.map Fragment.component)
  any_order : ∀ buckets, buckets.Perm c.buckets →
    ({ c with buckets } : Compilation).components = c.components
  block_gathered : ∀ mode, ∀ block ∈ c.plan mode,
    block.components = gather ((c.bucket block.target.toTarget).map (·.fragment.component))
  block_components_eq : ∀ mode, ∀ block ∈ c.plan mode, block.components =
    firstOccurrences ((withKey Fragment.target fs block.target.toTarget).map Fragment.component)
  nodup : c.components.Nodup
  block_nodup : ∀ mode, ∀ block ∈ c.plan mode, block.components.Nodup
  mem_iff_block : ∀ id, id ∈ c.components ↔ ∃ block ∈ c.plan .modern, id ∈ block.components
  inversion_mem : ∀ v ∈ c.inversions, v.component ∈ c.components

/-! ### Components of a history -/

namespace Compilation.Holds

variable {c : Compilation} {r : Registry} {fs : List Fragment} (hc : c.Holds r fs)
include hc

lemma components_eq : c.components = firstOccurrences (fs.map Fragment.component) := by
  have hids : c.inSubmissionOrder.map (·.fragment.component) = fs.map Fragment.component := by
    rw [hc.inSubmissionOrder_eq]
    conv_rhs => rw [← map_fragment_filedHistory fs, List.map_map]
    rfl
  rw [components, distinct_eq_gather, gather_eq, hids]

lemma mem_components_iff {id : String} :
    id ∈ c.components ↔ ∃ f ∈ fs, f.component = id := by
  rw [hc.components_eq, mem_firstOccurrences, List.mem_map]

lemma components_of_perm {buckets : List (Target × List Filed)} (h : buckets.Perm c.buckets) :
    ({ c with buckets } : Compilation).components = c.components := by
  have horder : ({ c with buckets } : Compilation).inSubmissionOrder = c.inSubmissionOrder := by
    rw [hc.inSubmissionOrder_eq]
    exact inSubmissionOrder_of_perm ((h.flatMap_right _).trans hc.contents)
  rw [components, horder, components]

lemma components_of_mem_plan {mode : Mode} {block : Block} (hblock : block ∈ c.plan mode) :
    block.components =
      distinct ((withKey Fragment.target fs block.target.toTarget).map Fragment.component) := by
  rw [hc.plan_eq] at hblock
  obtain ⟨t, -, -, rfl⟩ := Registry.mem_planOf_iff.mp hblock
  rfl

lemma map_component_bucket (t : Target) :
    (c.bucket t).map (·.fragment.component) =
      (withKey Fragment.target fs t).map Fragment.component := by
  rw [hc.bucket, ← map_fragment_withKey, List.map_map]
  rfl

/-- Blocks share out the history, and each component has a block for each of its targets. -/
lemma mem_components_iff_block (hr : r.WellFormed) {id : String} :
    id ∈ c.components ↔ ∃ block ∈ c.plan .modern, id ∈ block.components := by
  rw [hc.mem_components_iff]
  constructor
  · rintro ⟨f, hf, rfl⟩
    have htarget := ((hr.arranges_planOf hc.registered).mem_targets_iff f.target).mpr ⟨f, hf, rfl⟩
    rw [← hc.plan_eq] at htarget
    obtain ⟨block, hblock, htarget⟩ := List.mem_map.mp htarget
    refine ⟨block, hblock, ?_⟩
    rw [hc.components_of_mem_plan hblock, htarget, mem_distinct]
    exact List.mem_map.mpr ⟨f, mem_withKey.mpr ⟨hf, rfl⟩, rfl⟩
  · rintro ⟨block, hblock, hid⟩
    rw [hc.components_of_mem_plan hblock, mem_distinct] at hid
    obtain ⟨f, hf, rfl⟩ := List.mem_map.mp hid
    exact ⟨f, (mem_withKey.mp hf).1, rfl⟩

lemma mem_components_of_inversion {v : Inversion} (hv : v ∈ c.inversions) :
    v.component ∈ c.components := by
  rw [hc.inversions_eq] at hv
  obtain ⟨i, j, f, g, -, hf, -, hcomponent, -⟩ := r.exists_pair_of_inversion hv
  exact hc.mem_components_iff.mpr ⟨f, List.mem_of_getElem? hf, hcomponent⟩

end Compilation.Holds

/-- The components of a compilation are those of its history, each where it first occurs, wherever
its fragments went. Each block lists those of its own bucket, all blocks together list all of them,
and no inversion names another. -/
theorem components_first_seen {r : Registry} (hr : r.Reachable) {c : Compilation}
    {log log' : WarningLog} {fs : List Fragment}
    (h : (Compilation.start r).submitAll log fs = .ok (c, log')) : c.ListsComponents fs := by
  have hc := Compilation.holds_of_submitAll h
  have hblock : ∀ mode, ∀ block ∈ c.plan mode, block.components =
      gather ((withKey Fragment.target fs block.target.toTarget).map Fragment.component) := by
    intro mode block hblock
    rw [hc.components_of_mem_plan hblock, distinct_eq_gather]
  exact {
    gathered := distinct_eq_gather _
    components_eq := hc.components_eq
    any_order := fun _ hperm => hc.components_of_perm hperm
    block_gathered := by
      intro mode block hmem
      rw [hblock mode block hmem, hc.map_component_bucket]
    block_components_eq := by
      intro mode block hmem
      rw [hblock mode block hmem, gather_eq]
    nodup := nodup_distinct _
    block_nodup := by
      intro mode block hmem
      rw [hblock mode block hmem]
      exact nodup_gather _
    mem_iff_block := fun _ => hc.mem_components_iff_block hr.wellFormed
    inversion_mem := fun _ hv => hc.mem_components_of_inversion hv }

/-- The card writes first of all, but not first among the universal rules. -/
theorem components_of_mixedFragments :
    ∃ c log, (Compilation.start .mixed).submitAll {} mixedFragments = .ok (c, log) ∧
      c.ListsComponents mixedFragments ∧ c.components = ["card", "menu"] ∧
      (c.plan .modern).map (·.components) =
        [["menu", "card"], ["card"], ["menu"], ["card", "menu"]] := by
  have hsubmit : (Compilation.start .mixed).submitAll {} mixedFragments = .ok (_, _) := rfl
  have hlists := components_first_seen Registry.mixed_reachable hsubmit
  refine ⟨_, _, hsubmit, hlists, ?_, ?_⟩
  · rw [hlists.components_eq]
    decide
  · decide +kernel

end MediaSheets
