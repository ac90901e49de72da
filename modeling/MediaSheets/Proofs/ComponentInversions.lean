import MediaSheets.Proofs.InversionHistory

/-!
# Inversions component by component

The survey keeps the highest targets of all components in one place, and all inversions in
another. Still no component has a part in the inversions of another: those of one component
in a history are the inversions of its own part of the history.
-/

namespace MediaSheets

lemma targetsOf_withKey (fs : List Fragment) (component : String) :
    targetsOf component (withKey Fragment.component fs component) = targetsOf component fs := by
  simp only [targetsOf, withKey, List.filter_filter, Bool.and_self]

namespace Registry

variable (r : Registry)

/-- What a fragment adds hangs on the past of its own component. -/
lemma drop?_withKey (past : List Fragment) (f : Fragment) :
    r.drop? (withKey Fragment.component past f.component) f = r.drop? past f := by
  rw [drop?, targetsOf_withKey, drop?]

lemma component_of_drop? {past : List Fragment} {f : Fragment} {v : Inversion}
    (h : r.drop? past f = some v) : v.component = f.component := by
  obtain ⟨top, -, -, rfl⟩ := r.drop?_eq_some_iff.mp h
  rfl

/-- A drop belongs to the component of its fragment and to no other. -/
lemma withKey_drop? (past : List Fragment) (f : Fragment) (component : String) :
    withKey Inversion.component (r.drop? past f).toList component =
      if f.component = component then (r.drop? past f).toList else [] := by
  cases h : r.drop? past f with
  | none => simp [withKey]
  | some v =>
    rw [← r.component_of_drop? h, Option.toList_some, withKey, List.filter_singleton]
    simp

lemma withKey_drops (fs : List Fragment) (component : String) :
    withKey Inversion.component (r.drops fs) component =
      r.drops (withKey Fragment.component fs component) := by
  induction fs using List.reverseRecOn with
  | nil => rfl
  | append_singleton fs f ih =>
    rw [r.drops_append_singleton, withKey_append, ih, withKey_drop?]
    by_cases h : f.component = component
    · subst h
      rw [if_pos rfl, withKey_append_self, r.drops_append_singleton, drop?_withKey]
    · rw [if_neg h, withKey_append_of_ne h, List.append_nil]

/-- The inversions of a component are those of its own fragments. -/
theorem withKey_inversions (fs : List Fragment) (component : String) :
    withKey Inversion.component (r.inversions fs) component =
      r.inversions (withKey Fragment.component fs component) := by
  rw [inversions_eq, inversions_eq, ← withKey_drops, withKey, withKey, distinct_filter]

end Registry

/-- Components can be mixed in any way: if each has the same fragments in the same order, they
are accepted as before, each component has the same inversions in the same order, and all
inversions are the same in some order. -/
theorem inversions_of_interleaving {r : Registry} {c : Compilation} {log log₁ : WarningLog}
    {fs gs : List Fragment} (h : (Compilation.start r).submitAll log fs = .ok (c, log₁))
    (hparts : ∀ component, withKey Fragment.component gs component =
      withKey Fragment.component fs component) (log' : WarningLog) :
    ∃ c' log₂, (Compilation.start r).submitAll log' gs = .ok (c', log₂) ∧
      (∀ component, c'.inversions.filter (·.component = component) =
        c.inversions.filter (·.component = component)) ∧
      c'.inversions.Perm c.inversions ∧ (c'.inversions = [] ↔ c.inversions = []) := by
  have hc := Compilation.holds_of_submitAll h
  have haccepted : ∀ g ∈ gs, r.check g.target = .ok () :=
    fun g hg => hc.registered g ((perm_of_withKey hparts).mem_iff.mp hg)
  obtain ⟨c', log₂, h'⟩ := Compilation.exists_submitAll (c := .start r) haccepted log'
  have hcomponent : ∀ component, withKey Inversion.component c'.inversions component =
      withKey Inversion.component c.inversions component := by
    intro component
    rw [Compilation.inversions_of_submitAll h', Compilation.inversions_of_submitAll h,
      r.withKey_inversions, r.withKey_inversions, hparts]
  have hperm : c'.inversions.Perm c.inversions := perm_of_withKey hcomponent
  refine ⟨c', log₂, h', hcomponent, hperm, ?_⟩
  rw [← List.length_eq_zero_iff, hperm.length_eq, List.length_eq_zero_iff]

/-- The mixed fragments with one component after the other. -/
def separatedFragments : List Fragment :=
  [⟨"menu", .breakpoint "wide2x", "c"⟩, ⟨"menu", .universal, ""⟩,
    ⟨"menu", .breakpoint "wide", "e"⟩, ⟨"card", .breakpoint "wide", "a"⟩,
    ⟨"card", .breakpoint "narrow", "b"⟩, ⟨"card", .universal, "d"⟩,
    ⟨"card", .breakpoint "narrow", "f"⟩]

lemma withKey_separatedFragments (component : String) :
    withKey Fragment.component separatedFragments component =
      withKey Fragment.component mixedFragments component := by
  by_cases h : component ∈ ["card", "menu"]
  · revert component
    decide
  · simp only [List.mem_cons, List.not_mem_nil, or_false, not_or] at h
    simp [withKey, separatedFragments, mixedFragments, eq_comm, h]

/-- The inversions come in another order, and still in the same order for each component. -/
theorem inversions_of_separatedFragments :
    ∃ c log c' log', (Compilation.start .mixed).submitAll {} mixedFragments = .ok (c, log) ∧
      (Compilation.start .mixed).submitAll {} separatedFragments = .ok (c', log') ∧
      c'.inversions ≠ c.inversions ∧ c'.inversions.Perm c.inversions ∧
      c'.inversions.filter (·.component = "card") =
        [⟨"card", .breakpoint "wide", .breakpoint "narrow"⟩,
          ⟨"card", .breakpoint "wide", .universal⟩] := by
  have hsubmit : (Compilation.start .mixed).submitAll {} mixedFragments = .ok (_, _) := rfl
  obtain ⟨c', log', hsubmit', hcomponent, hperm, -⟩ :=
    inversions_of_interleaving hsubmit withKey_separatedFragments {}
  refine ⟨_, _, c', log', hsubmit, hsubmit', ?_, hperm, ?_⟩
  · rw [Compilation.inversions_of_submitAll hsubmit', Compilation.inversions_of_submitAll hsubmit]
    decide
  · rw [hcomponent, Compilation.inversions_of_submitAll hsubmit]
    decide

end MediaSheets
