import MediaSheets.Proofs.ComponentSubmission

/-!
# What submissions do

A submission comes off or not by its fragments and the registry alone. Then it files its fragments
and raises a warning for each blank one, and otherwise it does nothing. The warning log takes part
in neither: it is told of warnings and keeps the new ones, `WarningLog.newIn`, of which it has seen
no other with the same key. The history of a run is what its submissions file.
-/

namespace MediaSheets

/-- The fragments of a submission, in their order. -/
def Submission.fragments : Submission → List Fragment
  | .fragment f => [f]
  | .component c => c.fragments

/-- Whether a submission comes off, and why it does not. -/
def Registry.outcomeOf (r : Registry) (s : Submission) : Except AuthoringError Unit :=
  s.fragments.forM fun f => r.check f.target

/-- One warning for each blank fragment. -/
def blankWarnings (fs : List Fragment) : List Warning :=
  (fs.filter fun f => Text.isBlank f.text).map blankWarning

/-- The warnings that a submission raises, in order. One that is refused raises none. -/
def Registry.warningsOf (r : Registry) (s : Submission) : List Warning :=
  match r.outcomeOf s with
  | .ok () => blankWarnings s.fragments
  | .error _ => []

/-- The fragments that a submission files: all of them, or none if it is refused. -/
def Registry.filedOf (r : Registry) (s : Submission) : List Fragment :=
  match r.outcomeOf s with
  | .ok () => s.fragments
  | .error _ => []

/-- The compilation after a submission. One that is refused changes nothing. -/
def Compilation.next (c : Compilation) (s : Submission) : Compilation :=
  match c.registry.outcomeOf s with
  | .ok () => s.fragments.foldl file c
  | .error _ => c

namespace WarningLog

def warnAll (log : WarningLog) (ws : List Warning) : WarningLog := ws.foldl warn log

/-- The warnings that are new to a log when it is told of some one after another. -/
def newIn (log : WarningLog) : List Warning → List Warning
  | [] => []
  | w :: ws => if (log.record w).1 then w :: (log.warn w).newIn ws else (log.warn w).newIn ws

/-! ### The log -/

lemma warn_of_contains {log : WarningLog} {w : Warning} (h : log.contains w = true) :
    log.warn w = log := by
  simp [warn, record, h]

lemma warn_of_not_contains {log : WarningLog} {w : Warning} (h : log.contains w = false) :
    log.warn w =
      ⟨log.recorded ++ [w.key], log.quiet, log.shown ++ if log.quiet then [] else [w]⟩ := by
  obtain ⟨recorded, quiet, shown⟩ := log
  cases quiet <;> simp [warn, record, h]

lemma record_fst (log : WarningLog) (w : Warning) : (log.record w).1 = !log.contains w := by
  rw [record]
  cases log.contains w <;> rfl

/-- A log keeps the new warnings, and shows them unless it is quiet. -/
lemma warnAll_eq (log : WarningLog) (ws : List Warning) :
    log.warnAll ws =
      ⟨log.recorded ++ (log.newIn ws).map Warning.key, log.quiet,
        log.shown ++ if log.quiet then [] else log.newIn ws⟩ := by
  induction ws generalizing log with
  | nil => simp [warnAll, newIn]
  | cons w ws ih =>
    have hstep : log.warnAll (w :: ws) = (log.warn w).warnAll ws := rfl
    rw [hstep, ih, newIn, record_fst]
    cases h : log.contains w with
    | true => simp [warn_of_contains h]
    | false =>
      rw [warn_of_not_contains h]
      cases log.quiet <;> simp

/-- Warnings with different keys that a log has seen none of are all new to it. -/
lemma newIn_eq_self {log : WarningLog} {ws : List Warning} (hws : (ws.map Warning.key).Nodup)
    (hnew : ∀ w ∈ ws, w.key ∉ log.recorded) : log.newIn ws = ws := by
  induction ws generalizing log with
  | nil => rfl
  | cons w ws ih =>
    rw [List.map_cons, List.nodup_cons] at hws
    have hw : log.contains w = false := by simpa [contains] using hnew w List.mem_cons_self
    have hrest : ∀ w' ∈ ws, w'.key ∉ (log.warn w).recorded := by
      intro w' hw'
      rw [warn_of_not_contains hw, List.mem_append, List.mem_singleton, not_or]
      refine ⟨hnew w' (List.mem_cons_of_mem _ hw'), ?_⟩
      intro hkey
      exact hws.1 (hkey ▸ List.mem_map_of_mem hw')
    rw [newIn, record_fst, hw, ih hws.2 hrest]
    rfl

/-- A log records each key where it first occurs, unless it had the key before. -/
lemma recorded_warnAll (log : WarningLog) (ws : List Warning) :
    (log.warnAll ws).recorded =
      log.recorded ++ (distinct (ws.map Warning.key)).filter (· ∉ log.recorded) := by
  induction ws generalizing log with
  | nil => simp [warnAll, distinct]
  | cons w ws ih =>
    have hstep : log.warnAll (w :: ws) = (log.warn w).warnAll ws := rfl
    rw [hstep, ih, List.map_cons, distinct]
    by_cases hkey : w.key ∈ log.recorded
    · rw [warn_of_contains (by simpa [contains] using hkey), List.filter_cons_of_neg (by simpa),
        List.filter_filter]
      congr 1
      apply List.filter_congr
      intro key _
      by_cases h : key = w.key
      · simp [h, hkey]
      · simp [h]
    · rw [warn_of_not_contains (by simpa [contains] using hkey),
        List.filter_cons_of_pos (by simpa), List.filter_filter, List.append_assoc,
        List.singleton_append]
      congr 2
      apply List.filter_congr
      intro key _
      by_cases h : key = w.key
      · simp [h]
      · simp [h]

lemma mem_recorded_warnAll {log : WarningLog} {ws : List Warning} {key : String} :
    key ∈ (log.warnAll ws).recorded ↔ key ∈ log.recorded ∨ ∃ w ∈ ws, w.key = key := by
  rw [recorded_warnAll, List.mem_append, List.mem_filter, mem_distinct, List.mem_map,
    decide_eq_true_eq]
  by_cases h : key ∈ log.recorded
  · simp [h]
  · simp [h]

/-- No two new warnings have the same key, and none has a key that was recorded before. -/
lemma nodup_recorded_warnAll {log : WarningLog} (h : log.recorded.Nodup) (ws : List Warning) :
    (log.warnAll ws).recorded.Nodup := by
  rw [recorded_warnAll, List.nodup_append']
  refine ⟨h, (nodup_distinct _).filter _, ?_⟩
  intro key hkey hnew
  exact of_decide_eq_true (List.mem_filter.mp hnew).2 hkey

lemma warnAll_append (log : WarningLog) (ws ws' : List Warning) :
    log.warnAll (ws ++ ws') = (log.warnAll ws).warnAll ws' :=
  List.foldl_append

end WarningLog

namespace Compilation

/-! ### One submission -/

lemma registry_foldl_file (fs : List Fragment) (c : Compilation) :
    (fs.foldl file c).registry = c.registry := by
  induction fs generalizing c with
  | nil => rfl
  | cons f fs ih => exact ih (c.file f)

lemma registry_next (c : Compilation) (s : Submission) : (c.next s).registry = c.registry := by
  rw [next]
  cases c.registry.outcomeOf s with
  | error e => rfl
  | ok u => exact registry_foldl_file _ c

lemma warnAll_blankWarnings_cons (log : WarningLog) (f : Fragment) (fs : List Fragment) :
    log.warnAll (blankWarnings (f :: fs)) =
      (if Text.isBlank f.text then log.warn (blankWarning f) else log).warnAll
        (blankWarnings fs) := by
  rw [blankWarnings, List.filter_cons]
  cases Text.isBlank f.text <;> rfl

/-- Fragments that get past the first look are filed, with a warning for each blank one. -/
lemma submitAll_of_forM_check {c : Compilation} {fs : List Fragment}
    (h : fs.forM c.check = .ok ()) (log : WarningLog) :
    c.submitAll log fs = .ok (fs.foldl file c,
      log.warnAll (blankWarnings fs)) := by
  rw [forM_eq_ok_iff] at h
  induction fs generalizing c log with
  | nil => rfl
  | cons f fs ih =>
    have hrest : ∀ g ∈ fs, (c.file f).check g = .ok () :=
      fun g hg => h g (List.mem_cons_of_mem _ hg)
    refine submitAll_cons_eq_ok_iff.mpr
      ⟨_, _, submit_eq_ok_iff.mpr ⟨h f (by simp), rfl, rfl⟩, ?_⟩
    rw [ih hrest, warnAll_blankWarnings_cons, List.foldl_cons]

lemma submitAll_singleton (c : Compilation) (log : WarningLog) (f : Fragment) :
    c.submitAll log [f] = c.submit log f := by
  have hstep : c.submitAll log [f] = (c.submit log f >>= fun state => .ok state) := rfl
  rw [hstep]
  cases c.submit log f <;> rfl

lemma receive_of_ok {c : Compilation} {s : Submission} (h : c.registry.outcomeOf s = .ok ())
    {log : WarningLog} {state : Compilation × WarningLog}
    (hstate : c.submitAll log s.fragments = .ok state) : c.receive log s = (.ok (), state) := by
  cases s with
  | fragment f =>
    have hf : c.submit log f = .ok state := (submitAll_singleton c log f).symm.trans hstate
    rw [receive_fragment, hf]
  | component component => exact receive_component_of_ok h hstate

lemma receive_of_error {c : Compilation} {s : Submission} {error : AuthoringError}
    (h : c.registry.outcomeOf s = .error error) (log : WarningLog) :
    c.receive log s = (.error error, c, log) := by
  cases s with
  | fragment f =>
    have hcheck : (c.registry.check f.target >>= fun _ => .ok ()) = .error error := h
    have hf : c.submit log f = .error error := by
      rw [submit_eq_error_iff]
      simpa [bind_eq_error_iff] using hcheck
    rw [receive_fragment, hf]
  | component component => exact receive_component_of_error h

/-- The warning log takes no part in a submission but to be told of its warnings. -/
theorem receive_eq (c : Compilation) (log : WarningLog) (s : Submission) :
    c.receive log s =
      (c.registry.outcomeOf s, c.next s, log.warnAll (c.registry.warningsOf s)) := by
  rw [next, Registry.warningsOf]
  cases h : c.registry.outcomeOf s with
  | ok u => exact receive_of_ok h (submitAll_of_forM_check h log)
  | error e => exact receive_of_error h log

/-! ### Runs -/

/-- A run tells the log of the warnings of its submissions, one after another. -/
theorem receiveAll_eq (c : Compilation) (log : WarningLog) (ss : List Submission) :
    c.receiveAll log ss =
      (ss.map c.registry.outcomeOf, ss.foldl next c,
        log.warnAll (ss.flatMap c.registry.warningsOf)) := by
  induction ss generalizing c log with
  | nil => rfl
  | cons s ss ih =>
    rw [receiveAll, receive_eq]
    simp only [ih, registry_next, List.map_cons, List.foldl_cons, List.flatMap_cons,
      WarningLog.warnAll_append]

/-! ### Histories -/

/-- A submission adds to the history what it files. -/
lemma Holds.next {c : Compilation} {r : Registry} {fs : List Fragment} (hc : c.Holds r fs)
    (s : Submission) : (c.next s).Holds r (fs ++ r.filedOf s) := by
  rw [Compilation.next, Registry.filedOf, hc.registry]
  cases houtcome : r.outcomeOf s with
  | error e =>
    rw [List.append_nil]
    exact hc
  | ok u =>
    have hlook : s.fragments.forM c.check = .ok () := by
      rw [← houtcome, Registry.outcomeOf, ← hc.registry]
      rfl
    exact hc.submitAll (submitAll_of_forM_check hlook {})

lemma Holds.foldl_next {c : Compilation} {r : Registry} {fs : List Fragment} (hc : c.Holds r fs)
    (ss : List Submission) :
    (ss.foldl Compilation.next c).Holds r (fs ++ ss.flatMap r.filedOf) := by
  induction ss generalizing c fs with
  | nil =>
    rw [List.flatMap_nil, List.append_nil]
    exact hc
  | cons s ss ih =>
    rw [List.flatMap_cons, ← List.append_assoc]
    exact ih (hc.next s)

end Compilation

lemma Registry.mem_filedOf {r : Registry} {s : Submission} {f : Fragment}
    (hf : f ∈ r.filedOf s) : f ∈ s.fragments := by
  rw [filedOf] at hf
  cases houtcome : r.outcomeOf s with
  | ok u => rwa [houtcome] at hf
  | error e => simp [houtcome] at hf

end MediaSheets
