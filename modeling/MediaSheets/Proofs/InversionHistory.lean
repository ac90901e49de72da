import MediaSheets.Inversion
import MediaSheets.Proofs.BlockOrder
import Mathlib.Data.List.Find

/-!
# Inversions as a function of the history

The survey keeps the highest target of each component and goes through the history once.
Its result is said here without a state: `Registry.drop?` compares a fragment with the
highest of all earlier targets of its component, and the inversions of a compilation are
the drops of its history, each where it first occurs.
-/

namespace MediaSheets

/-- The targets of a component's fragments. -/
def targetsOf (component : String) (fs : List Fragment) : List Target :=
  (withKey Fragment.component fs component).map Fragment.target

namespace Registry

/-- The highest of some targets. -/
def highest? (r : Registry) (ts : List Target) : Option Target :=
  ts.find? fun t => ts.all fun u => r.height u ≤ r.height t

/-- The inversion that a fragment adds to earlier ones, if the highest target that its
component had before is above its own. -/
def drop? (r : Registry) (past : List Fragment) (f : Fragment) : Option Inversion :=
  match r.highest? (targetsOf f.component past) with
  | none => none
  | some top => if r.height f.target < r.height top then some ⟨f.component, top, f.target⟩ else none

/-- The drops of a history, one fragment after another. -/
def drops (r : Registry) (fs : List Fragment) : List Inversion :=
  fs.zipIdx.filterMap fun (f, position) => r.drop? (fs.take position) f

/-! ### The highest target -/

variable (r : Registry)

lemma highest?_eq_some_iff {ts : List Target} {top : Target} :
    r.highest? ts = some top ↔ ∃ before after, ts = before ++ top :: after ∧
      (∀ u ∈ before, r.height u < r.height top) ∧ ∀ u ∈ after, r.height u ≤ r.height top := by
  rw [highest?, List.find?_eq_some_iff_append]
  simp only [List.all_eq_true, Bool.not_eq_true', List.all_eq_false, decide_eq_true_eq]
  constructor
  · rintro ⟨hmax, before, after, rfl, hbefore⟩
    refine ⟨before, after, rfl, ?_, fun u hu => hmax u (by simp [hu])⟩
    intro u hu
    -- `u` is not the highest, so something is above it
    obtain ⟨v, hv, hnot⟩ := hbefore u hu
    exact (not_le.mp hnot).trans_le (hmax v hv)
  · rintro ⟨before, after, rfl, hbefore, hafter⟩
    refine ⟨?_, before, after, rfl, ?_⟩
    · intro u hu
      rcases List.mem_append.mp hu with hu | hu
      · exact (hbefore u hu).le
      · rcases List.mem_cons.mp hu with rfl | hu
        · exact le_rfl
        · exact hafter u hu
    · intro u hu
      exact ⟨top, by simp, not_le.mpr (hbefore u hu)⟩

lemma mem_of_highest? {ts : List Target} {top : Target} (h : r.highest? ts = some top) :
    top ∈ ts :=
  List.mem_of_find?_eq_some h

lemma le_of_highest? {ts : List Target} {top : Target} (h : r.highest? ts = some top)
    {u : Target} (hu : u ∈ ts) : r.height u ≤ r.height top := by
  have hall := List.find?_some h
  rw [List.all_eq_true] at hall
  exact of_decide_eq_true (hall u hu)

lemma highest?_append_of_lt {ts : List Target} {top t : Target} (h : r.highest? ts = some top)
    (hlt : r.height top < r.height t) : r.highest? (ts ++ [t]) = some t := by
  obtain ⟨before, after, rfl, hbefore, hafter⟩ := r.highest?_eq_some_iff.mp h
  refine r.highest?_eq_some_iff.mpr ⟨before ++ top :: after, [], rfl, ?_, by simp⟩
  intro u hu
  rcases List.mem_append.mp hu with hu | hu
  · exact (hbefore u hu).trans hlt
  · rcases List.mem_cons.mp hu with rfl | hu
    · exact hlt
    · exact (hafter u hu).trans_lt hlt

lemma highest?_append_of_le {ts : List Target} {top t : Target} (h : r.highest? ts = some top)
    (hle : r.height t ≤ r.height top) : r.highest? (ts ++ [t]) = some top := by
  obtain ⟨before, after, rfl, hbefore, hafter⟩ := r.highest?_eq_some_iff.mp h
  refine r.highest?_eq_some_iff.mpr ⟨before, after ++ [t], by simp, hbefore, ?_⟩
  intro u hu
  rcases List.mem_append.mp hu with hu | hu
  · exact hafter u hu
  · rw [List.mem_singleton.mp hu]
    exact hle

lemma highest?_eq_none_iff {ts : List Target} : r.highest? ts = none ↔ ts = [] := by
  constructor
  · intro h
    induction ts using List.reverseRecOn with
    | nil => rfl
    | append_singleton ts t ih =>
      cases hts : r.highest? ts with
      | none =>
        obtain rfl := ih hts
        simp [highest?] at h
      | some top =>
        rcases lt_or_ge (r.height top) (r.height t) with hlt | hle
        · rw [r.highest?_append_of_lt hts hlt] at h
          contradiction
        · rw [r.highest?_append_of_le hts hle] at h
          contradiction
  · rintro rfl
    rfl

/-! ### The comparison of ranks -/

lemma height_eq (t : Target) : r.height t = (r.rank? t : Option Int32) := by
  cases t with
  | universal => rfl
  | breakpoint name =>
    simp only [height, resolve, entry, rank?]
    cases r.find? name with
    | none => rfl
    | some e => rfl

/-- Comparing ranks that may be missing is comparing heights. -/
lemma compares_rank? (t u : Target) :
    (compare (r.rank? t) (r.rank? u)).Compares (r.height t) (r.height u) := by
  rw [height_eq, height_eq]
  cases r.rank? t with
  | none =>
    cases r.rank? u with
    | none => exact rfl
    | some b => exact WithBot.bot_lt_coe b
  | some a =>
    cases r.rank? u with
    | none => exact WithBot.bot_lt_coe a
    | some b =>
      have hsome : compare (some a) (some b) = compare a b := rfl
      rw [hsome]
      cases hab : compare a b with
      | lt => exact WithBot.coe_lt_coe.mpr (compare_lt_iff_lt.mp hab)
      | eq => exact congrArg WithBot.some (compare_eq_iff_eq.mp hab)
      | gt => exact WithBot.coe_lt_coe.mpr (compare_gt_iff_gt.mp hab)

end Registry

/-! ### The survey -/

lemma targetsOf_append_self (fs : List Fragment) (f : Fragment) :
    targetsOf f.component (fs ++ [f]) = targetsOf f.component fs ++ [f.target] := by
  rw [targetsOf, withKey_append_self, List.map_append]
  rfl

lemma targetsOf_append_of_ne {component : String} {f : Fragment} (h : f.component ≠ component)
    (fs : List Fragment) : targetsOf component (fs ++ [f]) = targetsOf component fs := by
  rw [targetsOf, withKey_append_of_ne h]
  rfl

lemma mem_targetsOf {component : String} {fs : List Fragment} {t : Target} :
    t ∈ targetsOf component fs ↔ ∃ f ∈ fs, f.component = component ∧ f.target = t := by
  simp only [targetsOf, List.mem_map, mem_withKey]
  constructor
  · rintro ⟨f, ⟨hf, hcomponent⟩, htarget⟩
    exact ⟨f, hf, hcomponent, htarget⟩
  · rintro ⟨f, hf, hcomponent, htarget⟩
    exact ⟨f, ⟨hf, hcomponent⟩, htarget⟩

lemma Registry.drops_append_singleton (r : Registry) (fs : List Fragment) (f : Fragment) :
    r.drops (fs ++ [f]) = r.drops fs ++ (r.drop? fs f).toList := by
  rw [drops, List.zipIdx_append, List.filterMap_append]
  congr 1
  · apply List.filterMap_congr
    rintro ⟨g, position⟩ hg
    simp only [take_append_of_mem_zipIdx hg]
  · cases h : r.drop? fs f with
    | none => simp [h]
    | some v => simp [h]

namespace Survey

lemma lookup_raise (s : Survey) (component : String) (t : Target) (k : String) :
    (s.raise component t).highest.lookup k =
      if k = component then some t else s.highest.lookup k := by
  by_cases h : k = component
  · subst h
    simp [raise]
  · rw [if_neg h, raise, lookup_cons_of_ne h, lookup_filter_ne h]

@[simp] lemma found_raise (s : Survey) (component : String) (t : Target) :
    (s.raise component t).found = s.found := rfl

@[simp] lemma highest_report (s : Survey) (v : Inversion) :
    (s.report v).highest = s.highest := by
  unfold report
  split
  · rfl
  · rfl

lemma found_report {s : Survey} {drops : List Inversion} (hs : s.found = distinct drops)
    (v : Inversion) : (s.report v).found = distinct (drops ++ [v]) := by
  by_cases hv : v ∈ drops
  · have hcontains : s.found.contains v = true := by
      rw [hs, List.contains_iff_mem]
      exact mem_distinct.mpr hv
    rw [report, if_pos hcontains, hs, distinct_append_of_mem hv]
  · have hcontains : ¬s.found.contains v = true := by
      rw [hs, List.contains_iff_mem]
      exact fun h => hv (mem_distinct.mp h)
    rw [report, if_neg hcontains, distinct_append_of_not_mem hv, hs]

/-- The survey is the one that these fragments lead to. -/
structure Follows (s : Survey) (r : Registry) (past : List Fragment) : Prop where
  highest : ∀ component, s.highest.lookup component = r.highest? (targetsOf component past)
  found : s.found = distinct (r.drops past)

lemma follows_empty (r : Registry) : Follows {} r [] where
  highest := by intro component; rfl
  found := rfl

variable {s : Survey} {r : Registry} {past : List Fragment} (hs : s.Follows r past)
include hs

/-- What a survey knows about other components stays true. -/
lemma Follows.highest_of_ne {component : String} {f : Fragment} (h : f.component ≠ component) :
    s.highest.lookup component = r.highest? (targetsOf component (past ++ [f])) := by
  rw [targetsOf_append_of_ne h]
  exact hs.highest component

lemma Follows.raise {f : Fragment}
    (htop : r.highest? (targetsOf f.component (past ++ [f])) = some f.target)
    (hdrop : r.drop? past f = none) :
    (s.raise f.component f.target).Follows r (past ++ [f]) where
  highest := by
    intro component
    rw [lookup_raise]
    by_cases h : component = f.component
    · subst h
      rw [if_pos rfl, htop]
    · rw [if_neg h, hs.highest_of_ne (Ne.symm h)]
  found := by
    rw [found_raise, hs.found, r.drops_append_singleton, hdrop, Option.toList_none, List.append_nil]

/-- A fragment that is not above its component's highest target leaves that in place. -/
lemma Follows.highest_of_le {f : Fragment} {top : Target}
    (htop : r.highest? (targetsOf f.component past) = some top)
    (hle : r.height f.target ≤ r.height top) (component : String) :
    s.highest.lookup component = r.highest? (targetsOf component (past ++ [f])) := by
  by_cases h : component = f.component
  · subst h
    rw [targetsOf_append_self, r.highest?_append_of_le htop hle, hs.highest, htop]
  · exact hs.highest_of_ne (Ne.symm h)

lemma Follows.report {f : Fragment} {top : Target}
    (htop : r.highest? (targetsOf f.component past) = some top)
    (hlt : r.height f.target < r.height top) :
    (s.report ⟨f.component, top, f.target⟩).Follows r (past ++ [f]) where
  highest := by
    rw [highest_report]
    exact hs.highest_of_le htop hlt.le
  found := by
    have hdrop : r.drop? past f = some ⟨f.component, top, f.target⟩ := by
      simp only [Registry.drop?, htop, if_pos hlt]
    rw [r.drops_append_singleton, hdrop]
    exact found_report hs.found _

lemma Follows.same {f : Fragment} {top : Target}
    (htop : r.highest? (targetsOf f.component past) = some top)
    (heq : r.height f.target = r.height top) : s.Follows r (past ++ [f]) where
  highest := hs.highest_of_le htop heq.le
  found := by
    have hdrop : r.drop? past f = none := by
      simp only [Registry.drop?, htop, heq, lt_irrefl, if_false]
    rw [r.drops_append_singleton, hdrop, Option.toList_none, List.append_nil, hs.found]

/-- One more fragment is one more step of the history. -/
lemma Follows.visit (f : Fragment) : (s.visit r f).Follows r (past ++ [f]) := by
  unfold Survey.visit
  cases htop : r.highest? (targetsOf f.component past) with
  | none =>
    simp only [hs.highest, htop]
    apply hs.raise
    · rw [targetsOf_append_self, r.highest?_eq_none_iff.mp htop]
      simp [Registry.highest?]
    · simp only [Registry.drop?, htop]
  | some top =>
    simp only [hs.highest, htop]
    have hcompares := r.compares_rank? f.target top
    cases horder : compare (r.rank? f.target) (r.rank? top) with
    | lt =>
      rw [horder] at hcompares
      exact hs.report htop hcompares
    | eq =>
      rw [horder] at hcompares
      exact hs.same htop hcompares
    | gt =>
      rw [horder] at hcompares
      have hgt : r.height top < r.height f.target := hcompares
      apply hs.raise
      · rw [targetsOf_append_self, r.highest?_append_of_lt htop hgt]
      · simp only [Registry.drop?, htop, if_neg hgt.not_gt]

/-- A survey that goes on through more fragments follows the longer history. -/
theorem Follows.foldl (fs : List Fragment) :
    (fs.foldl (Survey.visit r) s).Follows r (past ++ fs) := by
  induction fs generalizing s past with
  | nil =>
    rw [List.append_nil]
    exact hs
  | cons f fs ih =>
    have h := ih (hs.visit f)
    rwa [List.append_assoc] at h

end Survey

namespace Registry

variable (r : Registry)

lemma inversions_eq (fs : List Fragment) : r.inversions fs = distinct (r.drops fs) :=
  ((Survey.follows_empty r).foldl fs).found

/-! ### Pairs of fragments -/

lemma mem_inversions_iff {fs : List Fragment} {v : Inversion} :
    v ∈ r.inversions fs ↔ ∃ j f, fs[j]? = some f ∧ r.drop? (fs.take j) f = some v := by
  rw [inversions_eq, mem_distinct, drops, List.mem_filterMap]
  constructor
  · rintro ⟨⟨f, j⟩, hf, hv⟩
    exact ⟨j, f, List.mem_zipIdx_iff_getElem?.mp hf, hv⟩
  · rintro ⟨j, f, hf, hv⟩
    exact ⟨(f, j), List.mem_zipIdx_iff_getElem?.mpr hf, hv⟩

lemma drop?_eq_some_iff {past : List Fragment} {f : Fragment} {v : Inversion} :
    r.drop? past f = some v ↔ ∃ top, r.highest? (targetsOf f.component past) = some top ∧
      r.height f.target < r.height top ∧ v = ⟨f.component, top, f.target⟩ := by
  unfold drop?
  cases r.highest? (targetsOf f.component past) with
  | none => simp
  | some top => simp [eq_comm]

/-- A component's fragment below an earlier one makes an inversion at least as high. -/
lemma exists_inversion_of_pair {fs : List Fragment} {i j : Nat} {f g : Fragment} (hij : i < j)
    (hf : fs[i]? = some f) (hg : fs[j]? = some g) (hcomponent : f.component = g.component)
    (hlt : r.height g.target < r.height f.target) :
    ∃ v ∈ r.inversions fs, v.component = g.component ∧ v.later = g.target ∧
      r.height f.target ≤ r.height v.earlier := by
  have hmem : f.target ∈ targetsOf g.component (fs.take j) := by
    refine mem_targetsOf.mpr ⟨f, ?_, hcomponent, rfl⟩
    rw [List.mem_iff_getElem?]
    exact ⟨i, by rw [List.getElem?_take_of_lt hij, hf]⟩
  cases htop : r.highest? (targetsOf g.component (fs.take j)) with
  | none =>
    rw [r.highest?_eq_none_iff.mp htop] at hmem
    simp at hmem
  | some top =>
    have hle := r.le_of_highest? htop hmem
    refine ⟨⟨g.component, top, g.target⟩, ?_, rfl, rfl, hle⟩
    exact r.mem_inversions_iff.mpr
      ⟨j, g, hg, r.drop?_eq_some_iff.mpr ⟨top, htop, hlt.trans_le hle, rfl⟩⟩

/-- An inversion comes from two fragments of its component. -/
lemma exists_pair_of_inversion {fs : List Fragment} {v : Inversion} (hv : v ∈ r.inversions fs) :
    ∃ (i j : Nat) (f g : Fragment), i < j ∧ fs[i]? = some f ∧ fs[j]? = some g ∧
      f.component = v.component ∧ g.component = v.component ∧ f.target = v.earlier ∧
      g.target = v.later ∧ r.height v.later < r.height v.earlier := by
  obtain ⟨j, g, hg, hdrop⟩ := r.mem_inversions_iff.mp hv
  obtain ⟨top, htop, hlt, rfl⟩ := r.drop?_eq_some_iff.mp hdrop
  obtain ⟨f, hf, hcomponent, rfl⟩ := mem_targetsOf.mp (r.mem_of_highest? htop)
  obtain ⟨i, hi⟩ := List.mem_iff_getElem?.mp hf
  rw [List.getElem?_take] at hi
  by_cases hij : i < j
  · rw [if_pos hij] at hi
    exact ⟨i, j, f, g, hij, hi, hg, hcomponent, rfl, rfl, rfl, hlt⟩
  · rw [if_neg hij] at hi
    contradiction

end Registry

/-! ### Equal heights -/

namespace Registry

variable {r r' : Registry}

lemma highest?_congr {ts : List Target} (h : ∀ t ∈ ts, r'.height t = r.height t) :
    r'.highest? ts = r.highest? ts := by
  rw [highest?, highest?]
  apply List.find?_congr
  intro t ht
  rw [Bool.eq_iff_iff, List.all_eq_true, List.all_eq_true]
  constructor
  · intro hmax u hu
    rw [← h u hu, ← h t ht]
    exact hmax u hu
  · intro hmax u hu
    rw [h u hu, h t ht]
    exact hmax u hu

lemma drop?_congr {past : List Fragment} {f : Fragment}
    (hpast : ∀ g ∈ past, r'.height g.target = r.height g.target)
    (hf : r'.height f.target = r.height f.target) : r'.drop? past f = r.drop? past f := by
  have htargets : ∀ t ∈ targetsOf f.component past, r'.height t = r.height t := by
    intro t ht
    obtain ⟨g, hg, -, rfl⟩ := mem_targetsOf.mp ht
    exact hpast g hg
  rw [drop?, highest?_congr htargets, drop?]
  cases htop : r.highest? (targetsOf f.component past) with
  | none => rfl
  | some top => simp only [hf, htargets top (r.mem_of_highest? htop)]

/-- Only the heights of the targets that occur have a part in the inversions. -/
lemma inversions_congr_of_height {fs : List Fragment}
    (h : ∀ f ∈ fs, r'.height f.target = r.height f.target) :
    r'.inversions fs = r.inversions fs := by
  have hdrops : r'.drops fs = r.drops fs := by
    induction fs using List.reverseRecOn with
    | nil => rfl
    | append_singleton fs f ih =>
      have hpast : ∀ g ∈ fs, r'.height g.target = r.height g.target :=
        fun g hg => h g (List.mem_append_left [f] hg)
      rw [drops_append_singleton, drops_append_singleton, ih hpast,
        drop?_congr hpast (h f (by simp))]
  rw [inversions_eq, hdrops, inversions_eq]

end Registry

lemma Compilation.Holds.inversions_eq {c : Compilation} {r : Registry} {fs : List Fragment}
    (hc : c.Holds r fs) : c.inversions = r.inversions fs := by
  have hfs : c.inSubmissionOrder.map (·.fragment) = fs := by
    rw [hc.inSubmissionOrder_eq]
    exact map_fragment_filedHistory fs
  rw [inversions, hc.registry, hfs]

lemma Compilation.inversions_of_submitAll {r : Registry} {c : Compilation} {log log' : WarningLog}
    {fs : List Fragment} (h : (start r).submitAll log fs = .ok (c, log')) :
    c.inversions = r.inversions fs :=
  (holds_of_submitAll h).inversions_eq

/-- The inversions of a compilation are the drops of its history without repetitions. Two
fragments of a component in falling order always make one that is at least as high, and
there are no others. -/
theorem inversions_eq_distinct_drops {r : Registry} {c : Compilation} {log log' : WarningLog}
    {fs : List Fragment} (h : (Compilation.start r).submitAll log fs = .ok (c, log')) :
    c.inversions = distinct (r.drops fs) ∧
      (∀ (i j : Nat) (f g : Fragment), i < j → fs[i]? = some f → fs[j]? = some g →
        f.component = g.component → r.height g.target < r.height f.target →
        ∃ v ∈ c.inversions, v.component = g.component ∧ v.later = g.target ∧
          r.height f.target ≤ r.height v.earlier) ∧
      ∀ v ∈ c.inversions, ∃ (i j : Nat) (f g : Fragment), i < j ∧
        fs[i]? = some f ∧ fs[j]? = some g ∧ f.component = v.component ∧
        g.component = v.component ∧ f.target = v.earlier ∧ g.target = v.later ∧
        r.height v.later < r.height v.earlier := by
  rw [Compilation.inversions_of_submitAll h]
  refine ⟨r.inversions_eq fs, ?_, ?_⟩
  · intro i j f g hij hf hg hcomponent hlt
    exact r.exists_inversion_of_pair hij hf hg hcomponent hlt
  · intro v hv
    exact r.exists_pair_of_inversion hv

theorem inversions_of_mixedFragments :
    ∃ c log, (Compilation.start .mixed).submitAll {} mixedFragments = .ok (c, log) ∧
      c.inversions = [⟨"card", .breakpoint "wide", .breakpoint "narrow"⟩,
        ⟨"menu", .breakpoint "wide2x", .universal⟩, ⟨"card", .breakpoint "wide", .universal⟩] := by
  have hsubmit : (Compilation.start .mixed).submitAll {} mixedFragments = .ok (_, _) := rfl
  refine ⟨_, _, hsubmit, ?_⟩
  rw [(inversions_eq_distinct_drops hsubmit).1]
  decide

end MediaSheets
