import MediaSheets.Compilation
import MediaSheets.Proofs.StableSort
import Mathlib.Data.List.Nodup

/-!
# Submission histories

`Compilation.Holds c r fs` says that `c` files exactly the fragments `fs`, in this order,
against the registry `r`. Submission keeps it, so a compilation is determined by its
history: each bucket is the part of the history with its target, and the positions give
the whole history back.
-/

namespace MediaSheets

/-- How a history is filed: each fragment with the number of earlier ones for its target
and the number of earlier ones altogether. -/
def filedHistory (fs : List Fragment) : List Filed :=
  fs.zipIdx.map fun (f, position) =>
    ⟨f, (withKey Fragment.target (fs.take position) f.target).length, position⟩

/-- The target under which a fragment is filed. -/
def Filed.target (filed : Filed) : Target := filed.fragment.target

@[simp] lemma map_fragment_filedHistory (fs : List Fragment) :
    (filedHistory fs).map Filed.fragment = fs := by
  rw [filedHistory, List.map_map]
  exact List.zipIdx_map_fst 0 fs

lemma map_position_filedHistory (fs : List Fragment) :
    (filedHistory fs).map Filed.position = List.range fs.length := by
  rw [filedHistory, List.map_map, List.range_eq_range']
  exact List.zipIdx_map_snd 0 fs

/-- What is before one of the fragments does not depend on what comes after them. -/
lemma take_append_of_mem_zipIdx {fs : List Fragment} {g : Fragment} {position : Nat}
    (h : (g, position) ∈ fs.zipIdx) (gs : List Fragment) :
    (fs ++ gs).take position = fs.take position := by
  have hlt := List.snd_lt_of_mem_zipIdx h
  exact List.take_append_of_le_length (by omega)

lemma filedHistory_append_singleton (fs : List Fragment) (f : Fragment) :
    filedHistory (fs ++ [f]) =
      filedHistory fs ++ [⟨f, (withKey Fragment.target fs f.target).length, fs.length⟩] := by
  rw [filedHistory, List.zipIdx_append, List.map_append]
  congr 1
  · apply List.map_congr_left
    rintro ⟨g, position⟩ hg
    simp only [take_append_of_mem_zipIdx hg]
  · simp

lemma positions_ascending (fs : List Fragment) :
    (filedHistory fs).Pairwise fun a b => a.position < b.position := by
  have h := List.pairwise_lt_range (n := fs.length)
  rw [← map_position_filedHistory, List.pairwise_map] at h
  exact h

lemma eq_of_position {fs : List Fragment} {a b : Filed} (ha : a ∈ filedHistory fs)
    (hb : b ∈ filedHistory fs) (h : a.position = b.position) : a = b := by
  have hnodup : ((filedHistory fs).map Filed.position).Nodup := by
    rw [map_position_filedHistory]
    exact List.nodup_range
  exact List.inj_on_of_nodup_map hnodup ha hb h

lemma map_fragment_withKey (fs : List Fragment) (t : Target) :
    (withKey Filed.target (filedHistory fs) t).map Filed.fragment =
      withKey Fragment.target fs t := by
  have h := map_withKey Fragment.target Filed.fragment (filedHistory fs) t
  rw [map_fragment_filedHistory] at h
  exact h

/-! ### Filing one fragment -/

lemma lookup_fileIn (filed : Filed) (buckets : List (Target × List Filed)) (t : Target) :
    ((Compilation.fileIn filed buckets).lookup t).getD [] =
      if t = filed.target then (buckets.lookup t).getD [] ++ [filed]
      else (buckets.lookup t).getD [] := by
  unfold Filed.target
  induction buckets with
  | nil =>
    by_cases h : t = filed.fragment.target
    · subst h
      simp [Compilation.fileIn]
    · rw [Compilation.fileIn, lookup_cons_of_ne h, if_neg h]
  | cons head buckets ih =>
    obtain ⟨target, filedThere⟩ := head
    unfold Compilation.fileIn
    by_cases hhead : target = filed.fragment.target
    · subst hhead
      rw [if_pos rfl]
      by_cases h : t = filed.fragment.target
      · subst h
        simp
      · rw [if_neg h, lookup_cons_of_ne h, lookup_cons_of_ne h]
    · rw [if_neg hhead]
      by_cases h : t = target
      · subst h
        simp [hhead]
      · rw [lookup_cons_of_ne h, lookup_cons_of_ne h]
        exact ih

lemma fileIn_perm (filed : Filed) (buckets : List (Target × List Filed)) :
    ((Compilation.fileIn filed buckets).flatMap (·.2)).Perm
      (buckets.flatMap (·.2) ++ [filed]) := by
  induction buckets with
  | nil => simp [Compilation.fileIn]
  | cons head buckets ih =>
    unfold Compilation.fileIn
    split
    · rw [List.flatMap_cons, List.flatMap_cons, List.append_assoc, List.append_assoc]
      exact List.perm_append_comm.append_left _
    · rw [List.flatMap_cons, List.flatMap_cons, List.append_assoc]
      exact ih.append_left _

lemma Registry.check_eq_ok_iff {r : Registry} {t : Target} :
    r.check t = .ok () ↔ ∀ name, t = .breakpoint name → r.contains name = true := by
  cases t with
  | universal => simp [Registry.check]
  | breakpoint name => simp [Registry.check]

namespace Compilation

lemma bucket_file (c : Compilation) (f : Fragment) (t : Target) :
    (c.file f).bucket t =
      if t = f.target then c.bucket t ++ [⟨f, (c.bucket t).length, c.submitted⟩]
      else c.bucket t := by
  rw [bucket, file, lookup_fileIn]
  by_cases h : t = f.target
  · subst h
    rfl
  · rw [if_neg h]
    exact if_neg h

lemma submit_eq_ok_iff {c c' : Compilation} {log log' : WarningLog} {f : Fragment} :
    c.submit log f = .ok (c', log') ↔ c.registry.check f.target = .ok () ∧ c' = c.file f ∧
      log' = if Text.isBlank f.text then log.warn (blankWarning f) else log := by
  rw [submit, check]
  cases c.registry.check f.target with
  | error e => simp [bind, Except.bind]
  | ok u =>
    simp only [bind, Except.bind, pure, Except.pure, Except.ok.injEq, Prod.mk.injEq, true_and]
    constructor
    · rintro ⟨rfl, rfl⟩
      exact ⟨rfl, rfl⟩
    · rintro ⟨rfl, rfl⟩
      exact ⟨rfl, rfl⟩

lemma submit_eq_error_iff {c : Compilation} {log : WarningLog} {f : Fragment}
    {error : AuthoringError} :
    c.submit log f = .error error ↔ c.registry.check f.target = .error error := by
  rw [submit, check]
  cases c.registry.check f.target with
  | error e => simp [bind, Except.bind]
  | ok u => simp [bind, Except.bind, pure, Except.pure]

lemma submitAll_cons_eq_ok_iff {c : Compilation} {log : WarningLog} {f : Fragment}
    {fs : List Fragment} {result : Compilation × WarningLog} :
    c.submitAll log (f :: fs) = .ok result ↔ ∃ c₁ log₁, c.submit log f = .ok (c₁, log₁) ∧
      c₁.submitAll log₁ fs = .ok result := by
  have hstep : c.submitAll log (f :: fs) =
      (c.submit log f).bind fun next => next.1.submitAll next.2 fs := rfl
  rw [hstep]
  cases hf : c.submit log f with
  | error e => simp [Except.bind]
  | ok next =>
    constructor
    · intro h
      exact ⟨next.1, next.2, rfl, h⟩
    · rintro ⟨c₁, log₁, hnext, h⟩
      obtain rfl := Except.ok.inj hnext
      exact h

/-- Fragments are accepted when all their targets are. -/
lemma exists_submitAll {c : Compilation} {fs : List Fragment}
    (h : ∀ f ∈ fs, c.registry.check f.target = .ok ()) (log : WarningLog) :
    ∃ c' log', c.submitAll log fs = .ok (c', log') := by
  induction fs generalizing c log with
  | nil => exact ⟨c, log, rfl⟩
  | cons f fs ih =>
    obtain ⟨log₁, hf⟩ : ∃ log₁, c.submit log f = .ok (c.file f, log₁) :=
      ⟨_, submit_eq_ok_iff.mpr ⟨h f (by simp), rfl, rfl⟩⟩
    have hrest : ∀ g ∈ fs, (c.file f).registry.check g.target = .ok () :=
      fun g hg => h g (by simp [hg])
    obtain ⟨c', log', hfs⟩ := ih hrest log₁
    exact ⟨c', log', submitAll_cons_eq_ok_iff.mpr ⟨_, _, hf, hfs⟩⟩

/-- The compilation files exactly these fragments, submitted in this order. -/
structure Holds (c : Compilation) (r : Registry) (fs : List Fragment) : Prop where
  registry : c.registry = r
  registered : ∀ f ∈ fs, r.check f.target = .ok ()
  submitted : c.submitted = fs.length
  bucket : ∀ t, c.bucket t = withKey Filed.target (filedHistory fs) t
  contents : (c.buckets.flatMap (·.2)).Perm (filedHistory fs)

lemma holds_start (r : Registry) : (start r).Holds r [] where
  registry := rfl
  registered := by simp
  submitted := rfl
  bucket := by intro t; rfl
  contents := .nil

lemma Holds.length_bucket {c : Compilation} {r : Registry} {fs : List Fragment}
    (hc : c.Holds r fs) (t : Target) :
    (c.bucket t).length = (withKey Fragment.target fs t).length := by
  rw [hc.bucket, ← map_fragment_withKey, List.length_map]

lemma Holds.file {c : Compilation} {r : Registry} {fs : List Fragment} (hc : c.Holds r fs)
    {f : Fragment} (hf : r.check f.target = .ok ()) : (c.file f).Holds r (fs ++ [f]) where
  registry := hc.registry
  registered := by
    intro g hg
    rcases List.mem_append.mp hg with hg | hg
    · exact hc.registered g hg
    · rw [List.mem_singleton.mp hg]
      exact hf
  submitted := by
    rw [List.length_append, ← hc.submitted]
    rfl
  bucket := by
    intro t
    rw [bucket_file, filedHistory_append_singleton]
    by_cases h : t = f.target
    · subst h
      rw [if_pos rfl, hc.length_bucket, hc.submitted, hc.bucket]
      simp [withKey, Filed.target]
    · have hne : ¬f.target = t := fun heq => h heq.symm
      rw [if_neg h, hc.bucket]
      simp [withKey, Filed.target, hne]
  contents := by
    rw [filedHistory_append_singleton, ← hc.length_bucket, ← hc.submitted]
    exact (fileIn_perm _ _).trans (hc.contents.append_right _)

lemma Holds.submit {c c' : Compilation} {log log' : WarningLog} {r : Registry} {fs : List Fragment}
    (hc : c.Holds r fs) {f : Fragment} (h : c.submit log f = .ok (c', log')) :
    c'.Holds r (fs ++ [f]) := by
  obtain ⟨hf, rfl, -⟩ := submit_eq_ok_iff.mp h
  rw [hc.registry] at hf
  exact hc.file hf

/-- Accepted fragments are added to the history in their order. -/
theorem Holds.submitAll {c c' : Compilation} {log log' : WarningLog} {r : Registry}
    {fs gs : List Fragment} (hc : c.Holds r fs) (h : c.submitAll log gs = .ok (c', log')) :
    c'.Holds r (fs ++ gs) := by
  induction gs generalizing c log fs with
  | nil =>
    obtain ⟨rfl, rfl⟩ := Prod.mk.inj (Except.ok.inj h)
    rw [List.append_nil]
    exact hc
  | cons g gs ih =>
    obtain ⟨c₁, log₁, hg, hgs⟩ := submitAll_cons_eq_ok_iff.mp h
    have happ := ih (hc.submit hg) hgs
    rwa [List.append_assoc] at happ

theorem holds_of_submitAll {r : Registry} {c : Compilation} {log log' : WarningLog}
    {fs : List Fragment} (h : (start r).submitAll log fs = .ok (c, log')) : c.Holds r fs :=
  (holds_start r).submitAll h

/-- Sorting what is filed by positions gives the history back, in whatever order it lies. -/
lemma inSubmissionOrder_of_perm {c : Compilation} {fs : List Fragment}
    (h : (c.buckets.flatMap (·.2)).Perm (filedHistory fs)) : c.inSubmissionOrder = filedHistory fs := by
  have hperm : c.inSubmissionOrder.Perm (filedHistory fs) := (List.mergeSort_perm _ _).trans h
  have hsorted : c.inSubmissionOrder.Pairwise fun a b => a.position ≤ b.position :=
    stableSort_pairwise Filed.position _
  refine hperm.eq_of_pairwise ?_ hsorted ((positions_ascending fs).imp fun h => h.le)
  intro a b ha hb hab hba
  exact eq_of_position (hperm.mem_iff.mp ha) hb (le_antisymm hab hba)

theorem Holds.inSubmissionOrder_eq {c : Compilation} {r : Registry} {fs : List Fragment}
    (hc : c.Holds r fs) : c.inSubmissionOrder = filedHistory fs :=
  inSubmissionOrder_of_perm hc.contents

end Compilation

/-- Two components in turns, with targets that fall and rise and an empty text. -/
def mixedFragments : List Fragment :=
  [⟨"card", .breakpoint "wide", "a"⟩, ⟨"card", .breakpoint "narrow", "b"⟩,
    ⟨"menu", .breakpoint "wide2x", "c"⟩, ⟨"menu", .universal, ""⟩, ⟨"card", .universal, "d"⟩,
    ⟨"menu", .breakpoint "wide", "e"⟩, ⟨"card", .breakpoint "narrow", "f"⟩]

end MediaSheets
