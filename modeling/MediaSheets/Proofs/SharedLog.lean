import MediaSheets.Proofs.SubmissionEffects
import MediaSheets.Workspace

/-!
# Compilations that share a log

The compilations of a workspace keep their registries, and they have one warning log, which nothing
that they hand out depends on. Each of them therefore goes the way it would go alone.
What they share is seen in the log only: it holds what each of them would have recorded, once.
-/

namespace MediaSheets

/-- The submissions to one of several compilations, in their order. -/
def ownCalls (i : Nat) (calls : List (Nat × Submission)) : List Submission :=
  (calls.filter (·.1 = i)).map Prod.snd

/-- What came of the submissions to one of several compilations. -/
def ownOutcomes (i : Nat) (calls : List (Nat × Submission))
    (outcomes : List (Except AuthoringError Unit)) : List (Except AuthoringError Unit) :=
  ((calls.zip outcomes).filter (·.1.1 = i)).map Prod.snd

/-- The warnings that submissions to `units` compilations raise, one after another. -/
def Registry.raised (r : Registry) (units : Nat) (calls : List (Nat × Submission)) :
    List Warning :=
  calls.flatMap fun (i, s) => if i < units then r.warningsOf s else []

/-- What is left of submissions to the compilations of a new workspace, started from a cleared log:
each compilation is as it would be alone, and the log holds what each of them would record. -/
structure Workspace.Separates (r : Registry) (log : WarningLog) (units : Nat)
    (calls : List (Nat × Submission)) (outcomes : List (Except AuthoringError Unit))
    (w : Workspace) : Prop where
  outcomes_eq : ∀ i < units, ∀ log' : WarningLog, ownOutcomes i calls outcomes =
    ((Compilation.start r).receiveAll log'.clear (ownCalls i calls)).1
  unit_eq : ∀ i < units, ∀ log' : WarningLog, w.units[i]? =
    some ((Compilation.start r).receiveAll log'.clear (ownCalls i calls)).2.1
  recorded_iff : ∀ key, key ∈ w.log.recorded ↔ ∃ i < units, key ∈
    ((Compilation.start r).receiveAll log.clear (ownCalls i calls)).2.2.recorded
  any_order : ∀ calls', (∀ i < units, ownCalls i calls' = ownCalls i calls) →
    ((start r log.clear units).submitAll calls').2.log.recorded.Perm w.log.recorded
  told : w.log = log.clear.warnAll (r.raised units calls)
  recorded_eq : w.log.recorded = (log.clear.newIn (r.raised units calls)).map Warning.key
  nodup_recorded : w.log.recorded.Nodup
  shown_eq : w.log.shown =
    log.shown ++ if log.quiet then [] else log.clear.newIn (r.raised units calls)

/-! ### Calls -/

lemma ownCalls_cons_self (i : Nat) (s : Submission) (calls : List (Nat × Submission)) :
    ownCalls i ((i, s) :: calls) = s :: ownCalls i calls := by
  simp [ownCalls]

lemma ownCalls_cons_of_ne {i j : Nat} (h : j ≠ i) (s : Submission)
    (calls : List (Nat × Submission)) : ownCalls i ((j, s) :: calls) = ownCalls i calls := by
  simp [ownCalls, h]

lemma mem_ownCalls {i : Nat} {s : Submission} {calls : List (Nat × Submission)} :
    s ∈ ownCalls i calls ↔ (i, s) ∈ calls := by
  simp [ownCalls]

lemma ownOutcomes_map (i : Nat) (calls : List (Nat × Submission))
    (outcome : Nat × Submission → Except AuthoringError Unit) :
    ownOutcomes i calls (calls.map outcome) = (ownCalls i calls).map fun s => outcome (i, s) := by
  induction calls with
  | nil => rfl
  | cons call calls ih =>
    obtain ⟨j, s⟩ := call
    rw [ownOutcomes] at ih ⊢
    by_cases h : j = i
    · subst h
      rw [ownCalls_cons_self, List.map_cons, List.map_cons, ← ih]
      simp
    · rw [ownCalls_cons_of_ne h, ← ih]
      simp [h]

/-! ### Workspaces -/

lemma mapIdx_eq_self {α : Type} {l : List α} {f : Nat → α → α}
    (h : ∀ i (hi : i < l.length), f i l[i] = l[i]) : l.mapIdx f = l := by
  apply List.ext_getElem (by simp)
  intro i hi hi'
  rw [List.getElem_mapIdx, h]

namespace Workspace

/-- The registry of the compilation at an index, if there is one. -/
def registryAt (w : Workspace) (i : Nat) : Option Registry := w.units[i]?.map (·.registry)

/-- What comes of a submission to the compilation at an index. -/
def outcomeOf (w : Workspace) (call : Nat × Submission) : Except AuthoringError Unit :=
  (w.registryAt call.1).elim (.ok ()) fun r => r.outcomeOf call.2

/-- The warnings that a submission to the compilation at an index raises. -/
def warningsOf (w : Workspace) (call : Nat × Submission) : List Warning :=
  (w.registryAt call.1).elim [] fun r => r.warningsOf call.2

/-- A submission reaches the compilation at its index, and the log. -/
lemma submit_eq (w : Workspace) (i : Nat) (s : Submission) :
    w.submit i s = (w.outcomeOf (i, s),
      { w with
        units := w.units.mapIdx fun j c => if j = i then c.next s else c
        log := w.log.warnAll (w.warningsOf (i, s)) }) := by
  rw [submit, outcomeOf, warningsOf, registryAt]
  by_cases hi : i < w.units.length
  · have hset : w.units.set i (w.units[i].next s) =
        w.units.mapIdx fun j c => if j = i then c.next s else c := by
      apply List.ext_getElem (by simp)
      intro j hj hj'
      rw [List.getElem_set, List.getElem_mapIdx]
      by_cases h : i = j
      · subst h
        rw [if_pos rfl]
      · rw [if_neg h, if_neg (Ne.symm h)]
    rw [List.getElem?_eq_getElem hi]
    simp only [Compilation.receive_eq, hset, Option.map_some, Option.elim_some]
  · have hsame : (w.units.mapIdx fun j c => if j = i then c.next s else c) = w.units :=
      mapIdx_eq_self fun j hj => if_neg (by omega)
    rw [List.getElem?_eq_none (Nat.le_of_not_lt hi), hsame]
    rfl

lemma registryAt_submit (w : Workspace) (i : Nat) (s : Submission) :
    (w.submit i s).2.registryAt = w.registryAt := by
  funext j
  rw [submit_eq, registryAt, registryAt, List.getElem?_mapIdx, Option.map_map]
  congr 1
  funext c
  rw [Function.comp_apply]
  split
  · exact Compilation.registry_next c s
  · rfl

/-- Each compilation goes through its own submissions, and the log through all warnings. -/
theorem submitAll_eq (w : Workspace) (calls : List (Nat × Submission)) :
    w.submitAll calls = (calls.map w.outcomeOf,
      { w with
        units := w.units.mapIdx fun j c => (ownCalls j calls).foldl Compilation.next c
        log := w.log.warnAll (calls.flatMap w.warningsOf) }) := by
  induction calls generalizing w with
  | nil =>
    have hsame : (w.units.mapIdx fun j c => (ownCalls j []).foldl Compilation.next c) = w.units :=
      mapIdx_eq_self fun _ _ => rfl
    rw [hsame]
    rfl
  | cons call calls ih =>
    obtain ⟨i, s⟩ := call
    -- the compilation at `i` is one submission ahead of the others
    have hown : (w.units.mapIdx fun j c => if j = i then c.next s else c).mapIdx
        (fun j c => (ownCalls j calls).foldl Compilation.next c) =
          w.units.mapIdx fun j c => (ownCalls j ((i, s) :: calls)).foldl Compilation.next c := by
      rw [List.mapIdx_mapIdx]
      congr 1
      funext j c
      by_cases h : j = i
      · subst h
        rw [Function.comp_apply, if_pos rfl, ownCalls_cons_self]
        rfl
      · rw [Function.comp_apply, if_neg h, ownCalls_cons_of_ne (Ne.symm h)]
    have hstep : w.submitAll ((i, s) :: calls) =
        ((w.submit i s).1 :: ((w.submit i s).2.submitAll calls).1,
          ((w.submit i s).2.submitAll calls).2) := rfl
    have hregistries := registryAt_submit w i s
    have houtcomes : (w.submit i s).2.outcomeOf = w.outcomeOf := by
      funext call
      rw [outcomeOf, outcomeOf, hregistries]
    have hwarnings : (w.submit i s).2.warningsOf = w.warningsOf := by
      funext call
      rw [warningsOf, warningsOf, hregistries]
    rw [hstep, ih, houtcomes, hwarnings, submit_eq, hown, List.map_cons, List.flatMap_cons,
      WarningLog.warnAll_append]

lemma registryAt_start (r : Registry) (log : WarningLog) (units i : Nat) :
    (start r log units).registryAt i = if i < units then some r else none := by
  rw [registryAt, start, List.getElem?_replicate]
  split <;> rfl

end Workspace

lemma Registry.mem_raised_iff {r : Registry} {units : Nat} {calls : List (Nat × Submission)}
    {w : Warning} :
    w ∈ r.raised units calls ↔ ∃ i < units, w ∈ (ownCalls i calls).flatMap r.warningsOf := by
  simp only [raised, List.mem_flatMap, mem_ownCalls]
  constructor
  · rintro ⟨⟨i, s⟩, hcall, hw⟩
    by_cases hi : i < units
    · rw [if_pos hi] at hw
      exact ⟨i, hi, s, hcall, hw⟩
    · rw [if_neg hi] at hw
      contradiction
  · rintro ⟨i, hi, s, hcall, hw⟩
    exact ⟨(i, s), hcall, by rwa [if_pos hi]⟩

namespace Workspace

lemma submitAll_start (r : Registry) (log : WarningLog) (units : Nat)
    (calls : List (Nat × Submission)) :
    (start r log units).submitAll calls =
      (calls.map fun (i, s) => if i < units then r.outcomeOf s else .ok (),
        ⟨r, (List.replicate units (.start r)).mapIdx fun j c =>
          (ownCalls j calls).foldl Compilation.next c,
          log.warnAll (r.raised units calls)⟩) := by
  have houtcomes : (start r log units).outcomeOf =
      fun (i, s) => if i < units then r.outcomeOf s else .ok () := by
    funext ⟨i, s⟩
    by_cases h : i < units <;> simp [outcomeOf, registryAt_start, h]
  have hwarnings : (start r log units).warningsOf =
      fun (i, s) => if i < units then r.warningsOf s else [] := by
    funext ⟨i, s⟩
    by_cases h : i < units <;> simp [warningsOf, registryAt_start, h]
  rw [submitAll_eq, houtcomes, hwarnings]
  rfl

lemma mem_recorded_submitAll (r : Registry) (log : WarningLog) (units : Nat)
    (calls : List (Nat × Submission)) (key : String) :
    key ∈ ((start r log.clear units).submitAll calls).2.log.recorded ↔ ∃ i < units, key ∈
      ((Compilation.start r).receiveAll log.clear (ownCalls i calls)).2.2.recorded := by
  have hclear : log.clear.recorded = [] := rfl
  have hstart : (Compilation.start r).registry = r := rfl
  simp only [submitAll_start, Compilation.receiveAll_eq, WarningLog.mem_recorded_warnAll, hclear,
    hstart, List.not_mem_nil, false_or, Registry.mem_raised_iff]
  constructor
  · rintro ⟨w, ⟨i, hi, hw⟩, hkey⟩
    exact ⟨i, hi, w, hw, hkey⟩
  · rintro ⟨i, hi, w, hw, hkey⟩
    exact ⟨w, ⟨i, hi, hw⟩, hkey⟩

lemma nodup_recorded_submitAll (r : Registry) (log : WarningLog) (units : Nat)
    (calls : List (Nat × Submission)) :
    ((start r log.clear units).submitAll calls).2.log.recorded.Nodup := by
  rw [submitAll_start]
  exact WarningLog.nodup_recorded_warnAll List.nodup_nil _

lemma recorded_perm_submitAll (r : Registry) (log : WarningLog) {units : Nat}
    {calls calls' : List (Nat × Submission)}
    (h : ∀ i < units, ownCalls i calls' = ownCalls i calls) :
    ((start r log.clear units).submitAll calls').2.log.recorded.Perm
      ((start r log.clear units).submitAll calls).2.log.recorded := by
  rw [List.perm_ext_iff_of_nodup (nodup_recorded_submitAll ..) (nodup_recorded_submitAll ..)]
  intro key
  rw [mem_recorded_submitAll, mem_recorded_submitAll]
  constructor
  · rintro ⟨i, hi, hkey⟩
    exact ⟨i, hi, by rwa [← h i hi]⟩
  · rintro ⟨i, hi, hkey⟩
    exact ⟨i, hi, by rwa [h i hi]⟩

/-- The compilations of a workspace do not get in each other's way. Each goes the way it would go
alone, and all that their turns decide is which of them shows a warning first. -/
theorem separates_submitAll (r : Registry) (log : WarningLog) (units : Nat)
    (calls : List (Nat × Submission)) :
    ∃ outcomes w, (start r log.clear units).submitAll calls = (outcomes, w) ∧
      w.Separates r log units calls outcomes := by
  have hrun := submitAll_start r log.clear units calls
  have hwarned := WarningLog.warnAll_eq log.clear (r.raised units calls)
  refine ⟨_, _, rfl, ?_⟩
  constructor
  · intro i hi log'
    rw [hrun, Compilation.receiveAll_eq, ownOutcomes_map]
    simp only [if_pos hi]
    rfl
  · intro i hi log'
    rw [hrun, Compilation.receiveAll_eq, List.getElem?_mapIdx, List.getElem?_replicate, if_pos hi]
    rfl
  · exact mem_recorded_submitAll r log units calls
  · exact fun calls' h => recorded_perm_submitAll r log h
  · rw [hrun]
  · rw [hrun, hwarned]
    rfl
  · exact nodup_recorded_submitAll r log units calls
  · rw [hrun, hwarned]
    rfl

/-- Submissions to two compilations in turns, each of which files a blank rule. -/
def mixedCalls : List (Nat × Submission) :=
  [(0, .fragment ⟨"card", .breakpoint "wide", "a"⟩), (1, .fragment ⟨"card", .universal, " "⟩),
    (0, .fragment ⟨"card", .universal, ""⟩),
    (1, .component ⟨"menu", [⟨.universal, ""⟩, ⟨.breakpoint "gone", "b"⟩]⟩),
    (1, .component ⟨"menu", [⟨.breakpoint "wide", "c"⟩]⟩),
    (0, .fragment ⟨"menu", .breakpoint "wide", "d"⟩)]

/-- Both compilations raise one warning, which is shown once, and a component that one of them
refuses raises none. What they accept comes into blocks of their own. -/
theorem separates_mixedCalls :
    ∃ outcomes w, (start .mixed ({} : WarningLog).clear 2).submitAll mixedCalls = (outcomes, w) ∧
      w.Separates .mixed {} 2 mixedCalls outcomes ∧
      ownOutcomes 1 mixedCalls outcomes =
        [.ok (), .error (.unknownBreakpoint "gone"), .ok ()] ∧
      (∃ c, w.units[0]? = some c ∧ (c.plan .modern).map Block.body = ["", "a\nd"]) ∧
      (∃ c, w.units[1]? = some c ∧ (c.plan .modern).map Block.body = [" ", "c"]) ∧
      w.log.shown = [blankWarning ⟨"card", .universal, ""⟩] := by
  obtain ⟨outcomes, w, hrun, hseparates⟩ := separates_submitAll .mixed {} 2 mixedCalls
  refine ⟨outcomes, w, hrun, hseparates, ?_, ?_, ?_, ?_⟩
  · rw [hseparates.outcomes_eq 1 (by decide) {}]
    rfl
  · exact ⟨_, hseparates.unit_eq 0 (by decide) {}, rfl⟩
  · exact ⟨_, hseparates.unit_eq 1 (by decide) {}, rfl⟩
  · rw [hseparates.shown_eq]
    decide

end Workspace
end MediaSheets
