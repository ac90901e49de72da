import MediaSheets.Proofs.AlikeRegistries
import MediaSheets.Proofs.SubmissionEffects

/-!
# Breakpoints without rules

A breakpoint that no rules are meant for takes a place among the ranks, and nothing shows it: it
has no block, and it is not compared with anything. `unused_breakpoint_leaves_no_trace` compares
two runs of the same submissions, one before the breakpoint is registered and one after.
-/

namespace MediaSheets
namespace Registry

/-! ### Plans -/

lemma filter_insertAt {p : Int32 × Entry → Bool} {rank : Int32} {new : Entry}
    (h : p (rank, new) = false) {kept : List (Int32 × Entry)} (hfree : ∀ e, (rank, e) ∉ kept) :
    (insertAt rank new kept).filter p = kept.filter p := by
  induction kept with
  | nil => simp [insertAt, h]
  | cons head rest ih =>
    have hrest := ih fun e he => hfree e (List.mem_cons_of_mem _ he)
    obtain ⟨-, heq⟩ | ⟨-, heq⟩ := insertAt_cons_cases new hfree
    · rw [heq, List.filter_cons_of_neg (by simp [h])]
    · rw [heq, List.filter_cons, hrest, List.filter_cons]

lemma filter_entries_add {r : Registry} {p : Entry → Bool} {new : Entry}
    (hrank : r.findAt? new.breakpoint.rank = none) (h : p new = false) :
    (r.add new).entries.filter p = r.entries.filter p := by
  have hkept : (insertAt new.breakpoint.rank new r.holders).filter (p ∘ Prod.snd) =
      r.holders.filter (p ∘ Prod.snd) := filter_insertAt h (findAt?_eq_none_iff.mp hrank)
  rw [entries, add, List.filter_map, hkept, entries, List.filter_map]

/-- Among block targets of which a new entry's is none, the entry makes no difference. -/
lemma filter_blockTargets_add {r : Registry} (mode : Mode) {p : BlockTarget → Bool} {new : Entry}
    (hrank : r.findAt? new.breakpoint.rank = none) (h : p new.blockTarget = false) :
    ((r.add new).blockTargets mode).filter p = (r.blockTargets mode).filter p := by
  have hincludes : (r.add new).includes mode = r.includes mode := by
    cases mode with
    | modern => rfl
    | legacy => rfl
  have hentries : (r.add new).entries.filter
        (fun e => p e.blockTarget && r.includes mode e.breakpoint) =
      r.entries.filter fun e => p e.blockTarget && r.includes mode e.breakpoint :=
    filter_entries_add hrank (by rw [h, Bool.false_and])
  rw [blockTargets, blockTargets, hincludes, List.filter_cons, List.filter_cons, List.filter_map,
    List.filter_map, List.filter_filter, List.filter_filter]
  simp only [Function.comp_apply, hentries]

lemma planOf_add {r : Registry} (mode : Mode) {fs : List Fragment} {new : Entry}
    (hrank : r.findAt? new.breakpoint.rank = none)
    (hfs : ∀ f ∈ fs, f.target ≠ .breakpoint new.breakpoint.name) :
    (r.add new).planOf mode fs = r.planOf mode fs := by
  have hnone : withKey Fragment.target fs new.blockTarget.toTarget = [] := by
    by_contra hne
    obtain ⟨f, hf, htarget⟩ := withKey_ne_nil_iff.mp hne
    exact hfs f hf htarget
  have hdropped : (!(withKey Fragment.target fs new.blockTarget.toTarget).isEmpty) = false := by
    rw [hnone]
    rfl
  rw [planOf, filter_blockTargets_add mode hrank hdropped, planOf]

/-! ### One more breakpoint -/

namespace Gains

variable {r r' : Registry} {b : Breakpoint} (hgains : r.Gains b r')
include hgains

lemma check_eq {t : Target} (ht : t ≠ .breakpoint b.name) : r'.check t = r.check t := by
  cases t with
  | universal => rfl
  | breakpoint name =>
    have hname : name ≠ b.name := fun heq => ht (congrArg Target.breakpoint heq)
    rw [check, hgains.contains name hname, check]

lemma height_eq {t : Target} (ht : t ≠ .breakpoint b.name) : r'.height t = r.height t := by
  cases t with
  | universal => rfl
  | breakpoint name =>
    have hname : name ≠ b.name := fun heq => ht (congrArg Target.breakpoint heq)
    rw [height, hgains.resolve name hname, height]

lemma outcomeOf_eq {s : Submission} (hs : ∀ f ∈ s.fragments, f.target ≠ .breakpoint b.name) :
    r'.outcomeOf s = r.outcomeOf s :=
  forM_congr fun f hf => hgains.check_eq (hs f hf)

lemma filedOf_eq {s : Submission} (hs : ∀ f ∈ s.fragments, f.target ≠ .breakpoint b.name) :
    r'.filedOf s = r.filedOf s := by
  rw [filedOf, hgains.outcomeOf_eq hs, filedOf]

lemma warningsOf_eq {s : Submission} (hs : ∀ f ∈ s.fragments, f.target ≠ .breakpoint b.name) :
    r'.warningsOf s = r.warningsOf s := by
  rw [warningsOf, hgains.outcomeOf_eq hs, warningsOf]

end Gains

/-- A breakpoint that no submission names makes no difference: the same submissions come off,
and the same is made of them. -/
theorem unused_breakpoint_leaves_no_trace {r r' : Registry} (hr : r.Reachable) {b : Breakpoint}
    (h : r.register b = .ok r') {ss : List Submission}
    (hss : ∀ s ∈ ss, ∀ f ∈ s.fragments, f.target ≠ .breakpoint b.name) (log : WarningLog) :
    ∃ outcomes c c' log', (Compilation.start r).receiveAll log ss = (outcomes, c, log') ∧
      (Compilation.start r').receiveAll log ss = (outcomes, c', log') ∧ c.Matches c' := by
  have hgains := hr.wellFormed.gains h
  have houtcomes : ss.map r'.outcomeOf = ss.map r.outcomeOf :=
    List.map_congr_left fun s hs => hgains.outcomeOf_eq (hss s hs)
  have hwarnings : ss.flatMap r'.warningsOf = ss.flatMap r.warningsOf :=
    List.flatMap_congr fun s hs => hgains.warningsOf_eq (hss s hs)
  have hfiled : ss.flatMap r'.filedOf = ss.flatMap r.filedOf :=
    List.flatMap_congr fun s hs => hgains.filedOf_eq (hss s hs)
  have hunused : ∀ f ∈ ss.flatMap r.filedOf, f.target ≠ .breakpoint b.name := by
    intro f hf
    obtain ⟨s, hs, hf⟩ := List.mem_flatMap.mp hf
    exact hss s hs f (mem_filedOf hf)
  have hc := (Compilation.holds_start r).foldl_next ss
  have hc' := (Compilation.holds_start r').foldl_next ss
  rw [hfiled] at hc'
  have hrun := Compilation.receiveAll_eq (.start r) log ss
  have hrun' := Compilation.receiveAll_eq (.start r') log ss
  simp only [Compilation.start, houtcomes, hwarnings] at hrun hrun'
  refine ⟨_, _, _, _, hrun, hrun', hc.matches hc' ?_ ?_⟩
  · intro mode
    obtain ⟨-, hrank, media, -, rfl⟩ := register_eq_ok_iff.mp h
    exact planOf_add mode hrank hunused
  · exact inversions_congr_of_height fun f hf => hgains.height_eq (hunused f hf)

/-- A component, a fragment for an unknown breakpoint, and the mixed fragments. -/
def mixedSubmissions : List Submission :=
  .component ⟨"menu", [⟨.breakpoint "wide", "m"⟩, ⟨.breakpoint "dense", ""⟩]⟩ ::
    .fragment ⟨"card", .breakpoint "gone", "x"⟩ :: mixedFragments.map .fragment

/-- An upper bound takes a place between the others, and no block. -/
theorem tablets_leave_no_trace :
    ∃ r outcomes c c' log', mixed.register ⟨"tablet", -1, .width (.atMost 899)⟩ = .ok r ∧
      r.breakpoints.map (·.name) = ["narrow", "dense", "tablet", "wide2x", "wide"] ∧
      (Compilation.start mixed).receiveAll {} mixedSubmissions = (outcomes, c, log') ∧
      (Compilation.start r).receiveAll {} mixedSubmissions = (outcomes, c', log') ∧
      outcomes.take 2 = [.ok (), .error (.unknownBreakpoint "gone")] ∧ c.Matches c' ∧
      (c'.plan .modern).map Block.body = ["\nd", "b\nf", "", "c", "m\na\ne"] := by
  have hregister : mixed.register ⟨"tablet", -1, .width (.atMost 899)⟩ = .ok _ := rfl
  have hunused : ∀ s ∈ mixedSubmissions, ∀ f ∈ s.fragments, f.target ≠ .breakpoint "tablet" := by
    decide
  obtain ⟨outcomes, c, c', log', hrun, hrun', hmatches⟩ :=
    unused_breakpoint_leaves_no_trace mixed_reachable hregister hunused {}
  refine ⟨_, outcomes, c, c', log', hregister, rfl, hrun, hrun', ?_, hmatches, ?_⟩
  · rw [Compilation.receiveAll_eq] at hrun
    rw [← (Prod.mk.inj hrun).1]
    rfl
  · rw [Compilation.receiveAll_eq] at hrun'
    obtain ⟨-, rfl, -⟩ := hrun'
    rfl

end Registry
end MediaSheets
