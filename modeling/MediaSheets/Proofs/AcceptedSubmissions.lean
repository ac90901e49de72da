import MediaSheets.Proofs.ComponentSubmission
import Mathlib.Algebra.GroupWithZero.Nat

/-!
# Runs with refusals

Fragments are submitted one after another, and some of them are refused. What is collected
is then a function of the accepted ones alone: `Compilation.Collects` says how each of them
is filed, and refusals leave no trace.
-/

namespace MediaSheets

/-- The fragments whose submission came off. -/
def acceptedOf (fs : List Fragment) (outcomes : List (Except AuthoringError Unit)) :
    List Fragment :=
  ((fs.zip outcomes).filter fun (_, outcome) => outcome.isOk).map Prod.fst

/-- What is filed of some accepted fragments, in whatever order the buckets lie. -/
structure Compilation.Collects (c : Compilation) (accepted : List Fragment) : Prop where
  order : c.inSubmissionOrder.map Filed.fragment = accepted
  position : ∀ i (filed : Filed), c.inSubmissionOrder[i]? = some filed → filed.position = i
  any_order : ∀ buckets, buckets.Perm c.buckets →
    ({ c with buckets } : Compilation).inSubmissionOrder = c.inSubmissionOrder
  bucket : ∀ t, c.bucket t = c.inSubmissionOrder.filter (·.target = t)
  fragments : ∀ t, (c.bucket t).map Filed.fragment = accepted.filter (·.target = t)
  sequence : ∀ t k (filed : Filed), (c.bucket t)[k]? = some filed → filed.sequence = k
  ascending : ∀ t, (c.bucket t).Pairwise fun a b => a.position < b.position
  opened : c.buckets.map Prod.fst = distinct (accepted.map Fragment.target)
  submitted : c.submitted = accepted.length
  sizes : (c.buckets.map fun (_, bucket) => bucket.length).sum = c.submitted

/-! ### Numbers of filed fragments -/

lemma map_sequence_withKey (fs : List Fragment) (t : Target) :
    (withKey Filed.target (filedHistory fs) t).map Filed.sequence =
      List.range (withKey Fragment.target fs t).length := by
  induction fs using List.reverseRecOn with
  | nil => rfl
  | append_singleton fs f ih =>
    rw [filedHistory_append_singleton]
    by_cases h : f.target = t
    · subst h
      rw [withKey_append_self Fragment.target, List.length_append, List.length_singleton,
        List.range_succ, ← ih]
      simp [withKey, Filed.target]
    · rw [withKey_append_of_ne h, ← ih]
      simp [withKey, Filed.target, h]

lemma eq_of_map_eq_range {α : Type} {number : α → Nat} {l : List α} {n : Nat}
    (h : l.map number = List.range n) {i : Nat} {a : α} (ha : l[i]? = some a) : number a = i := by
  have hnumber : (l.map number)[i]? = some (number a) := by rw [List.getElem?_map, ha]; rfl
  rw [h] at hnumber
  obtain ⟨hi, heq⟩ := List.getElem?_eq_some_iff.mp hnumber
  rw [← heq, List.getElem_range]

/-! ### Buckets that were opened -/

lemma map_fst_fileIn (filed : Filed) (buckets : List (Target × List Filed)) :
    (Compilation.fileIn filed buckets).map Prod.fst =
      if filed.target ∈ buckets.map Prod.fst then buckets.map Prod.fst
      else buckets.map Prod.fst ++ [filed.target] := by
  unfold Filed.target
  induction buckets with
  | nil => rfl
  | cons head buckets ih =>
    obtain ⟨target, bucket⟩ := head
    unfold Compilation.fileIn
    by_cases hhead : target = filed.fragment.target
    · simp [hhead]
    · have hne : filed.fragment.target ≠ target := Ne.symm hhead
      rw [if_neg hhead, List.map_cons, ih, List.map_cons]
      by_cases hmem : filed.fragment.target ∈ buckets.map Prod.fst
      · rw [if_pos hmem, if_pos (List.mem_cons_of_mem _ hmem)]
      · rw [if_neg hmem, if_neg (List.not_mem_cons_of_ne_of_not_mem hne hmem), List.cons_append]

namespace Compilation

lemma map_fst_buckets_file {c : Compilation} {past : List Fragment}
    (hc : c.buckets.map Prod.fst = distinct (past.map Fragment.target)) (f : Fragment) :
    (c.file f).buckets.map Prod.fst = distinct ((past ++ [f]).map Fragment.target) := by
  have hfile : (c.file f).buckets = fileIn ⟨f, (c.bucket f.target).length, c.submitted⟩ c.buckets :=
    rfl
  rw [hfile, map_fst_fileIn, hc, List.map_append, List.map_singleton]
  simp only [Filed.target, mem_distinct]
  by_cases hmem : f.target ∈ past.map Fragment.target
  · rw [if_pos hmem, distinct_append_of_mem hmem]
  · rw [if_neg hmem, distinct_append_of_not_mem hmem]

/-- A bucket is opened for each target where it first occurs, and for no other. -/
lemma map_fst_buckets_of_submitAll {c c' : Compilation} {log log' : WarningLog}
    {past fs : List Fragment} (hc : c.buckets.map Prod.fst = distinct (past.map Fragment.target))
    (h : c.submitAll log fs = .ok (c', log')) :
    c'.buckets.map Prod.fst = distinct ((past ++ fs).map Fragment.target) := by
  induction fs generalizing c log past with
  | nil =>
    obtain ⟨rfl, rfl⟩ := Prod.mk.inj (Except.ok.inj h)
    rw [List.append_nil]
    exact hc
  | cons f fs ih =>
    obtain ⟨c₁, log₁, hf, hfs⟩ := submitAll_cons_eq_ok_iff.mp h
    obtain ⟨-, rfl, -⟩ := submit_eq_ok_iff.mp hf
    have hrest := ih (map_fst_buckets_file hc f) hfs
    rwa [List.append_assoc] at hrest

lemma Holds.collects {c : Compilation} {r : Registry} {fs : List Fragment} (hc : c.Holds r fs)
    (hopened : c.buckets.map Prod.fst = distinct (fs.map Fragment.target)) : c.Collects fs where
  order := by rw [hc.inSubmissionOrder_eq, map_fragment_filedHistory]
  position := by
    intro i filed hfiled
    rw [hc.inSubmissionOrder_eq] at hfiled
    exact eq_of_map_eq_range (map_position_filedHistory fs) hfiled
  any_order := by
    intro buckets hperm
    rw [hc.inSubmissionOrder_eq]
    exact inSubmissionOrder_of_perm ((hperm.flatMap_right _).trans hc.contents)
  bucket := by
    intro t
    rw [hc.bucket, hc.inSubmissionOrder_eq]
    rfl
  fragments := by
    intro t
    rw [hc.bucket, map_fragment_withKey]
    rfl
  sequence := by
    intro t k filed hfiled
    rw [hc.bucket] at hfiled
    exact eq_of_map_eq_range (map_sequence_withKey fs t) hfiled
  ascending := by
    intro t
    rw [hc.bucket]
    exact (positions_ascending fs).filter _
  opened := hopened
  submitted := hc.submitted
  sizes := by
    have hlength : (filedHistory fs).length = fs.length := by
      rw [← List.length_map (f := Filed.fragment), map_fragment_filedHistory]
    have hcontents := hc.contents.length_eq
    rw [List.length_flatMap, hlength] at hcontents
    rw [hc.submitted, ← hcontents]

/-! ### Runs -/

/-- Refusals leave no trace: a run leaves what its accepted fragments alone would leave. -/
lemma receiveAll_fragments {r : Registry} (hr : r.WellFormed) (fs : List Fragment)
    {c : Compilation} (hc : c.registry = r) (log : WarningLog) :
    ∃ state, c.submitAll log (fs.filter fun f => r.Knows f.target) = .ok state ∧
      c.receiveAll log (fs.map .fragment) = (fs.map fun f => r.check f.target, state) := by
  induction fs generalizing c log with
  | nil => exact ⟨(c, log), rfl, rfl⟩
  | cons f fs ih =>
    cases hcheck : r.check f.target with
    | ok u =>
      have hknown : r.Knows f.target := hr.check_eq_ok_iff_knows.mp hcheck
      obtain ⟨log₁, hf⟩ : ∃ log₁, c.submit log f = .ok (c.file f, log₁) :=
        ⟨_, submit_eq_ok_iff.mpr ⟨by rw [hc, hcheck], rfl, rfl⟩⟩
      obtain ⟨state, hstate, hrun⟩ := ih (c := c.file f) hc log₁
      refine ⟨state, ?_, ?_⟩
      · rw [List.filter_cons_of_pos (by simpa using hknown)]
        exact submitAll_cons_eq_ok_iff.mpr ⟨_, _, hf, hstate⟩
      · rw [List.map_cons, receiveAll, receive_fragment, hf]
        simp only [hrun, List.map_cons, hcheck]
    | error error =>
      obtain ⟨name, -, hunknown, -⟩ := hr.check_eq_error_iff.mp hcheck
      have hf : c.submit log f = .error error := submit_eq_error_iff.mpr (by rw [hc, hcheck])
      obtain ⟨state, hstate, hrun⟩ := ih hc log
      refine ⟨state, ?_, ?_⟩
      · rw [List.filter_cons_of_neg (by simpa using hunknown)]
        exact hstate
      · rw [List.map_cons, receiveAll, receive_fragment, hf]
        simp only [hrun, List.map_cons, hcheck]

end Compilation

lemma Registry.WellFormed.acceptedOf_map_check {r : Registry} (hr : r.WellFormed)
    (fs : List Fragment) :
    acceptedOf fs (fs.map fun f => r.check f.target) = fs.filter fun f => r.Knows f.target := by
  induction fs with
  | nil => rfl
  | cons f fs ih =>
    rw [acceptedOf] at ih ⊢
    rw [List.map_cons, List.zip_cons_cons]
    cases hcheck : r.check f.target with
    | ok u =>
      have hknown : r.Knows f.target := hr.check_eq_ok_iff_knows.mp hcheck
      rw [List.filter_cons_of_pos rfl, List.filter_cons_of_pos (by simpa using hknown),
        List.map_cons, ih]
    | error error =>
      obtain ⟨name, -, hunknown, -⟩ := hr.check_eq_error_iff.mp hcheck
      rw [List.filter_cons_of_neg Bool.false_ne_true,
        List.filter_cons_of_neg (by simpa using hunknown), ih]

/-- The accepted fragments of a run are those with known targets, and nothing but them decides
what is collected. A refused fragment changes nothing and opens no bucket. -/
theorem collects_accepted {r : Registry} (hr : r.Reachable) (log : WarningLog)
    (fs : List Fragment) :
    ∃ outcomes c log',
      (Compilation.start r).receiveAll log (fs.map .fragment) = (outcomes, c, log') ∧
      acceptedOf fs outcomes = (fs.filter fun f => r.Knows f.target) ∧
      c.Collects (acceptedOf fs outcomes) ∧
      ∀ f name, f.target = .breakpoint name → ¬r.Knows f.target →
        c.receive log' (.fragment f) = (.error (.unknownBreakpoint name), c, log') := by
  have hw := hr.wellFormed
  obtain ⟨⟨c, log'⟩, haccepted, hrun⟩ :=
    Compilation.receiveAll_fragments hw fs (c := .start r) rfl log
  have hc := Compilation.holds_of_submitAll haccepted
  have hstart : (Compilation.start r).buckets.map Prod.fst =
      distinct (([] : List Fragment).map Fragment.target) := rfl
  have hopened := Compilation.map_fst_buckets_of_submitAll hstart haccepted
  refine ⟨_, c, log', hrun, hw.acceptedOf_map_check fs, ?_, ?_⟩
  · rw [hw.acceptedOf_map_check]
    exact hc.collects hopened
  · intro f name hname hunknown
    have hcheck : r.check f.target = .error (.unknownBreakpoint name) :=
      hw.check_eq_error_iff.mpr ⟨name, hname, hunknown, rfl⟩
    have hf : c.submit log' f = .error (.unknownBreakpoint name) :=
      Compilation.submit_eq_error_iff.mpr (by rw [hc.registry, hcheck])
    rw [Compilation.receive_fragment, hf]

/-- Two fragments for unknown breakpoints stand between and behind the others. -/
theorem collects_of_mixed :
    ∃ outcomes c log', (Compilation.start .mixed).receiveAll {}
        ([⟨"card", .breakpoint "wide", "a"⟩, ⟨"card", .breakpoint "nowhere", ""⟩,
          ⟨"menu", .universal, ""⟩, ⟨"card", .breakpoint "wide", "b"⟩,
          ⟨"menu", .breakpoint "gone", "c"⟩].map .fragment) = (outcomes, c, log') ∧
      c.Collects [⟨"card", .breakpoint "wide", "a"⟩, ⟨"menu", .universal, ""⟩,
        ⟨"card", .breakpoint "wide", "b"⟩] ∧
      c.receive log' (.fragment ⟨"menu", .breakpoint "nowhere", ""⟩) =
        (.error (.unknownBreakpoint "nowhere"), c, log') := by
  obtain ⟨outcomes, c, log', hrun, haccepted, hcollects, hrefused⟩ :=
    collects_accepted Registry.mixed_reachable {}
      [⟨"card", .breakpoint "wide", "a"⟩, ⟨"card", .breakpoint "nowhere", ""⟩,
        ⟨"menu", .universal, ""⟩, ⟨"card", .breakpoint "wide", "b"⟩,
        ⟨"menu", .breakpoint "gone", "c"⟩]
  refine ⟨outcomes, c, log', hrun, ?_, hrefused _ _ rfl (by decide)⟩
  rw [haccepted] at hcollects
  exact hcollects

end MediaSheets
