import MediaSheets.Proofs.AcceptedSubmissions
import MediaSheets.Proofs.InversionHistory
import MediaSheets.Proofs.PlanHistory

/-!
# Registries with the same breakpoints

A registry is determined by its breakpoints and its cutoff. `Registry.Alike` says that no
lookup tells two registries apart, and `Compilation.Matches` that no result of two
compilations does. Both follow when the breakpoints and the cutoffs are the same.
-/

namespace MediaSheets

/-- No lookup tells two registries apart. -/
structure Registry.Alike (r r' : Registry) : Prop where
  cutoff : r'.cutoff = r.cutoff
  size : r'.size = r.size
  breakpoints : r'.breakpoints = r.breakpoints
  legacyBreakpoints : r'.legacyBreakpoints = r.legacyBreakpoints
  contains : ∀ name, r'.contains name = r.contains name
  resolve : ∀ name, r'.resolve name = r.resolve name
  media : ∀ name, r'.media name = r.media name
  predicate : ∀ name, r'.predicate name = r.predicate name

/-- Two compilations hold the same fragments, and the same is made of them. -/
structure Compilation.Matches (c c' : Compilation) : Prop where
  inSubmissionOrder : c'.inSubmissionOrder = c.inSubmissionOrder
  plan : ∀ mode, c'.plan mode = c.plan mode
  modern : c'.modern = c.modern
  legacy : c'.legacy = c.legacy
  inversions : c'.inversions = c.inversions

/-! ### Entries -/

lemma eq_of_map_eq {α β : Type} {f : α → β} {l l' : List α} (h : l.map f = l'.map f)
    (hinj : ∀ a ∈ l, ∀ a' ∈ l', f a = f a' → a = a') : l = l' := by
  have hlength : l.length = l'.length := by
    rw [← List.length_map (f := f), h, List.length_map]
  apply List.ext_getElem hlength
  intro i hi hi'
  apply hinj _ (List.getElem_mem hi) _ (List.getElem_mem hi')
  rw [← List.getElem_map f (h := by rwa [List.length_map]),
    ← List.getElem_map f (h := by rwa [List.length_map])]
  simp only [h]

namespace Registry

/-- A condition is looked up among the breakpoints, so it is the same where they are. -/
lemma Reachable.media_eq {r r' : Registry} (hr : r.Reachable) (hr' : r'.Reachable)
    (h : r'.breakpoints = r.breakpoints) {e e' : Entry} (he : e ∈ r.entries)
    (he' : e' ∈ r'.entries) (heq : e'.breakpoint = e.breakpoint) : e'.media = e.media := by
  cases hcondition : e.breakpoint.condition with
  | width bound => rw [hr'.media_of_width he' (heq ▸ hcondition), hr.media_of_width he hcondition]
  | hiDpi =>
    have hmedia := hr.mediaOf_of_mem e he
    have hmedia' := hr'.mediaOf_of_mem e' he'
    rw [heq] at hmedia'
    simp only [mediaOf, hcondition, Except.ok.injEq] at hmedia hmedia'
    exact hmedia'.symm.trans hmedia
  | pairedHiDpi base =>
    obtain ⟨-, b, bound, hb, hbound, -, hwidth⟩ := hr.width_of_base he hcondition
    obtain ⟨-, b', bound', hb', hbound', -, hwidth'⟩ :=
      hr'.width_of_base he' (heq ▸ hcondition)
    obtain ⟨hmem, hname⟩ := hr.wellFormed.resolve_eq_ok_iff.mp hb
    obtain ⟨hmem', hname'⟩ := hr'.wellFormed.resolve_eq_ok_iff.mp hb'
    rw [h] at hmem'
    have hbase : b' = b := List.inj_on_of_nodup_map hr.wellFormed.nodup_names hmem' hmem
      (hname'.trans hname.symm)
    rw [hbase, hbound] at hbound'
    rw [hwidth', hwidth, Condition.width.inj hbound']

lemma Reachable.entries_eq {r r' : Registry} (hr : r.Reachable) (hr' : r'.Reachable)
    (h : r'.breakpoints = r.breakpoints) : r'.entries = r.entries := by
  apply eq_of_map_eq h
  intro e' he' e he heq
  calc
    e' = ⟨e'.breakpoint, e'.media⟩ := rfl
    _ = ⟨e.breakpoint, e.media⟩ := by rw [hr.media_eq hr' h he he' heq, heq]
    _ = e := rfl

lemma Reachable.find?_eq {r r' : Registry} (hr : r.Reachable) (hr' : r'.Reachable)
    (h : r'.breakpoints = r.breakpoints) (name : String) : r'.find? name = r.find? name := by
  apply Option.ext
  intro e
  rw [hr'.wellFormed.find?_eq_some_iff, hr.wellFormed.find?_eq_some_iff, hr.entries_eq hr' h]

lemma isLegacy_eq {r r' : Registry} (hcutoff : r'.cutoff = r.cutoff) (b : Breakpoint) :
    r'.isLegacy b = r.isLegacy b := by
  rw [isLegacy, isLegacy, hcutoff]

/-- The breakpoints and the cutoff decide every lookup. -/
theorem Reachable.alike {r r' : Registry} (hr : r.Reachable) (hr' : r'.Reachable)
    (hcutoff : r'.cutoff = r.cutoff) (h : r'.breakpoints = r.breakpoints) : r.Alike r' := by
  have hfind := hr.find?_eq hr' h
  have hmedia : ∀ name, r'.media name = r.media name := by
    intro name
    simp only [Registry.media, entry, hfind name]
  constructor
  · exact hcutoff
  · rw [← r'.length_entries, hr.entries_eq hr' h, r.length_entries]
  · exact h
  · rw [legacyBreakpoints, h, legacyBreakpoints, funext (isLegacy_eq hcutoff)]
  · intro name
    rw [hr'.wellFormed.contains_eq, hfind name, hr.wellFormed.contains_eq]
  · intro name
    simp only [resolve, entry, hfind name]
  · exact hmedia
  · intro name
    rw [predicate, hmedia name, predicate]

end Registry

/-! ### Compilations -/

/-- Compilations of one history match when its plans and its inversions do. -/
lemma Compilation.Holds.matches {c c' : Compilation} {r r' : Registry} {fs : List Fragment}
    (hc : c.Holds r fs) (hc' : c'.Holds r' fs)
    (hplan : ∀ mode, r'.planOf mode fs = r.planOf mode fs)
    (hinversions : r'.inversions fs = r.inversions fs) : c.Matches c' := by
  have hblocks : ∀ mode, c'.plan mode = c.plan mode := by
    intro mode
    rw [hc'.plan_eq, hplan, hc.plan_eq]
  constructor
  · rw [hc'.inSubmissionOrder_eq, hc.inSubmissionOrder_eq]
  · exact hblocks
  · rw [modern, hblocks, modern]
  · rw [legacy, hblocks, legacy]
  · rw [hc'.inversions_eq, hinversions, hc.inversions_eq]

namespace Registry

lemma Reachable.planOf_eq {r r' : Registry} (hr : r.Reachable) (hr' : r'.Reachable)
    (hcutoff : r'.cutoff = r.cutoff) (h : r'.breakpoints = r.breakpoints) (mode : Mode)
    (fs : List Fragment) : r'.planOf mode fs = r.planOf mode fs := by
  have hincludes : r'.includes mode = r.includes mode := by
    funext b
    cases mode with
    | modern => rfl
    | legacy => exact isLegacy_eq hcutoff b
  simp only [planOf, blockTargets, hincludes, hr.entries_eq hr' h]

lemma inversions_congr {r r' : Registry} (h : ∀ name, r'.find? name = r.find? name)
    (fs : List Fragment) : r'.inversions fs = r.inversions fs := by
  apply inversions_congr_of_height
  intro f _
  cases f.target with
  | universal => rfl
  | breakpoint name => simp only [height, resolve, entry, h name]

lemma Reachable.check_eq {r r' : Registry} (hr : r.Reachable) (hr' : r'.Reachable)
    (h : r'.breakpoints = r.breakpoints) (t : Target) : r'.check t = r.check t := by
  cases t with
  | universal => rfl
  | breakpoint name =>
    rw [check, hr'.wellFormed.contains_eq, hr.find?_eq hr' h, ← hr.wellFormed.contains_eq, check]

/-- The same fragments are accepted, whatever the cutoffs. -/
lemma Reachable.exists_runs {r r' : Registry} (hr : r.Reachable) (hr' : r'.Reachable)
    (h : r'.breakpoints = r.breakpoints) (fs : List Fragment) (log log' : WarningLog) :
    ∃ outcomes c c' l l',
      (Compilation.start r).receiveAll log (fs.map .fragment) = (outcomes, c, l) ∧
      (Compilation.start r').receiveAll log' (fs.map .fragment) = (outcomes, c', l') ∧
      c.Holds r (fs.filter fun f => r.Knows f.target) ∧
      c'.Holds r' (fs.filter fun f => r.Knows f.target) ∧ c'.inversions = c.inversions := by
  obtain ⟨⟨c, l⟩, haccepted, hrun⟩ :=
    Compilation.receiveAll_fragments hr.wellFormed fs (c := .start r) rfl log
  obtain ⟨⟨c', l'⟩, haccepted', hrun'⟩ :=
    Compilation.receiveAll_fragments hr'.wellFormed fs (c := .start r') rfl log'
  have hknows : r'.Knows = r.Knows := by
    funext t
    cases t with
    | universal => rfl
    | breakpoint name => rw [Knows, h, Knows]
  simp only [hknows] at haccepted'
  simp only [hr.check_eq hr' h] at hrun'
  have hc := Compilation.holds_of_submitAll haccepted
  have hc' := Compilation.holds_of_submitAll haccepted'
  refine ⟨_, c, c', l, l', hrun, hrun', hc, hc', ?_⟩
  rw [hc'.inversions_eq, inversions_congr (hr.find?_eq hr' h), hc.inversions_eq]

/-- The same fragments are accepted, and the same is made of them. -/
theorem Reachable.exists_matches {r r' : Registry} (hr : r.Reachable) (hr' : r'.Reachable)
    (hcutoff : r'.cutoff = r.cutoff) (h : r'.breakpoints = r.breakpoints) (fs : List Fragment)
    (log log' : WarningLog) :
    ∃ outcomes c c' l l',
      (Compilation.start r).receiveAll log (fs.map .fragment) = (outcomes, c, l) ∧
      (Compilation.start r').receiveAll log' (fs.map .fragment) = (outcomes, c', l') ∧
      c.Matches c' := by
  obtain ⟨outcomes, c, c', l, l', hrun, hrun', hc, hc', -⟩ := hr.exists_runs hr' h fs log log'
  exact ⟨outcomes, c, c', l, l', hrun, hrun',
    hc.matches hc' (fun mode => hr.planOf_eq hr' hcutoff h mode _)
      (inversions_congr (hr.find?_eq hr' h) _)⟩

end Registry
end MediaSheets
