import MediaSheets.Proofs.JoinedTexts
import MediaSheets.Proofs.SubmissionEffects
import Mathlib.Data.List.DropRight

/-!
# The log as a function of its calls

Warnings are raised with or without being shown, and a log is made quiet or not and cleared.
`WarningLog.Remembers` says what it answers after some calls: all of it depends on the warnings
raised since it was last cleared, `LogCall.raised`. The log keeps texts in place of warnings, and
these tell the warnings apart as long as no area has a bracket with a blank behind it.
-/

namespace MediaSheets

/-- What can be done to a warning log. -/
inductive LogCall
  | warn (w : Warning)
  | record (w : Warning)
  | setQuiet (quiet : Bool)
  | clear
  deriving DecidableEq, Repr

namespace LogCall

/-- The warning that a call raises, whether it would show it or not. -/
def warning? : LogCall → Option Warning
  | .warn w => some w
  | .record w => some w
  | .setQuiet _ => none
  | .clear => none

def quiet? : LogCall → Option Bool
  | .setQuiet quiet => some quiet
  | _ => none

/-- The warnings raised since the last call that cleared the log. -/
def raised (calls : List LogCall) : List Warning :=
  (calls.rtakeWhile (· ≠ .clear)).filterMap warning?

/-- Whether a log is quiet after some calls. The last one that said so decides. -/
def quietAfter (quiet : Bool) (calls : List LogCall) : Bool :=
  (calls.filterMap quiet?).getLast?.getD quiet

end LogCall

/-- The text of the warning in a log shows where its area ends. -/
def Warning.Separable (w : Warning) : Prop := ¬"] ".toList <:+: w.area.toList

instance (w : Warning) : Decidable w.Separable :=
  inferInstanceAs (Decidable ¬"] ".toList <:+: w.area.toList)

namespace WarningLog

def call (log : WarningLog) : LogCall → WarningLog
  | .warn w => log.warn w
  | .record w => (log.record w).2
  | .setQuiet quiet => log.setQuiet quiet
  | .clear => log.clear

def callAll (log : WarningLog) (calls : List LogCall) : WarningLog := calls.foldl call log

open LogCall (raised quietAfter warning?)

/-- What a log answers and shows when some calls have been made to it. -/
structure Remembers (log : WarningLog) (calls : List LogCall) (quiet : Bool) : Prop where
  contains_iff : ∀ w : Warning, w.Separable → (log.contains w = true ↔ w ∈ raised calls)
  contains_iff_key : ∀ w : Warning, log.contains w = true ↔ ∃ v ∈ raised calls, v.key = w.key
  count_eq : log.count = (distinct (raised calls)).length
  isNew_iff : ∀ w : Warning, w.Separable → ((log.record w).1 = true ↔ w ∉ raised calls)
  shown_warn : ∀ w : Warning, w.Separable →
    (log.warn w).shown = log.shown ++ if w ∉ raised calls ∧ quiet = false then [w] else []
  shown_other : ∀ c : LogCall, (∀ w, c ≠ .warn w) → (log.call c).shown = log.shown
  silent : ∀ more : List LogCall, (∀ w ∈ more.filterMap warning?, w.Separable) → .clear ∉ more →
    ∃ news, (log.callAll more).shown = log.shown ++ news ∧ ∀ w ∈ raised calls, w ∉ news

/-- The log has the warnings of a list, each once and in the order in which they first occur. -/
structure Has (log : WarningLog) (ws : List Warning) : Prop where
  recorded_eq : log.recorded = (distinct ws).map Warning.key
  separable : ∀ w ∈ ws, w.Separable

end WarningLog

/-! ### Texts of warnings -/

/-- The first bracket with a blank behind it ends the area, whatever the message is. -/
lemma Warning.key_inj {v w : Warning} (hv : v.Separable) (hw : w.Separable) :
    v.key = w.key ↔ v = w := by
  have hsplit : ∀ w : Warning,
      w.key.toList = '[' :: (w.area.toList ++ "] ".toList ++ w.message.toList) := by
    intro w
    simp [key]
  constructor
  · intro h
    have hlists := congrArg String.toList h
    rw [hsplit, hsplit] at hlists
    obtain ⟨harea, hmessage⟩ :=
      Text.append_pattern_inj ⟨']', _, rfl, by decide⟩ hv hw (List.cons.inj hlists).2
    cases v with
    | mk area message =>
      cases w with
      | mk area' message' =>
        rw [Warning.mk.injEq]
        exact ⟨String.toList_inj.mp harea, String.toList_inj.mp hmessage⟩
  · rintro rfl
    rfl

-- An area may end in a bracket, but with a blank behind it the bracket has two readings.
example : (Warning.mk "collect] a" "b").key = (Warning.mk "collect" "a] b").key := by decide

/-! ### Calls -/

namespace LogCall

lemma raised_append_singleton (calls : List LogCall) (c : LogCall) :
    raised (calls ++ [c]) = if c = .clear then [] else raised calls ++ c.warning?.toList := by
  rw [raised, List.rtakeWhile_concat]
  by_cases hc : c = .clear
  · simp [hc]
  · cases hw : c.warning? <;> simp [raised, hc, hw]

lemma quietAfter_append_singleton (quiet : Bool) (calls : List LogCall) (c : LogCall) :
    quietAfter quiet (calls ++ [c]) = c.quiet?.getD (quietAfter quiet calls) := by
  rw [quietAfter, List.filterMap_append]
  cases hc : c.quiet? <;> simp [quietAfter, hc]

/-- Nothing that was raised is forgotten before the log is cleared. -/
lemma raised_append_of_notMem (calls : List LogCall) {more : List LogCall} (h : .clear ∉ more) :
    raised (calls ++ more) = raised calls ++ more.filterMap warning? := by
  induction more using List.reverseRecOn with
  | nil => simp
  | append_singleton more c ih =>
    rw [List.mem_append, List.mem_singleton, not_or] at h
    rw [← List.append_assoc, raised_append_singleton, if_neg (Ne.symm h.2), ih h.1,
      List.filterMap_append, List.append_assoc]
    cases hc : c.warning? <;> simp [hc]

end LogCall

namespace WarningLog

open LogCall (raised quietAfter warning?)

variable {log : WarningLog} {ws : List Warning} {w : Warning}

lemma record_snd (log : WarningLog) (w : Warning) :
    (log.record w).2 =
      if log.contains w then log else { log with recorded := log.recorded ++ [w.key] } := by
  rw [record]
  cases log.contains w <;> rfl

lemma shown_warn_eq (log : WarningLog) (w : Warning) :
    (log.warn w).shown =
      log.shown ++ if log.contains w = false ∧ log.quiet = false then [w] else [] := by
  cases h : log.contains w with
  | true => simp [warn_of_contains h]
  | false => cases hq : log.quiet <;> simp [warn_of_not_contains h, hq]

lemma Has.contains_iff_key (h : log.Has ws) (w : Warning) :
    log.contains w = true ↔ ∃ v ∈ ws, v.key = w.key := by
  simp [contains, h.recorded_eq, mem_distinct]

lemma Has.contains_iff (h : log.Has ws) (hw : w.Separable) :
    log.contains w = true ↔ w ∈ ws := by
  rw [h.contains_iff_key]
  constructor
  · rintro ⟨v, hv, hkey⟩
    rwa [← (Warning.key_inj (h.separable v hv) hw).mp hkey]
  · exact fun hmem => ⟨w, hmem, rfl⟩

lemma Has.record (h : log.Has ws) (hw : w.Separable) : (log.record w).2.Has (ws ++ [w]) where
  recorded_eq := by
    rw [record_snd]
    by_cases hmem : w ∈ ws
    · rw [if_pos ((h.contains_iff hw).mpr hmem), distinct_append_of_mem hmem, h.recorded_eq]
    · rw [if_neg (mt (h.contains_iff hw).mp hmem), distinct_append_of_not_mem hmem,
        List.map_append, ← h.recorded_eq]
      rfl
  separable := by
    intro v hv
    rcases List.mem_append.mp hv with hv | hv
    · exact h.separable v hv
    · rwa [List.mem_singleton.mp hv]

lemma recorded_warn (log : WarningLog) (w : Warning) :
    (log.warn w).recorded = (log.record w).2.recorded := by
  rw [record_snd]
  cases h : log.contains w with
  | true => rw [warn_of_contains h, if_pos rfl]
  | false => rw [warn_of_not_contains h, if_neg Bool.false_ne_true]

lemma quiet_warn (log : WarningLog) (w : Warning) : (log.warn w).quiet = log.quiet := by
  cases h : log.contains w with
  | true => rw [warn_of_contains h]
  | false => rw [warn_of_not_contains h]

/-- One call keeps what a log has in step with what was raised. -/
lemma Has.call {calls : List LogCall} (h : log.Has (raised calls)) {c : LogCall}
    (hc : ∀ w ∈ c.warning?, w.Separable) : (log.call c).Has (raised (calls ++ [c])) := by
  rw [LogCall.raised_append_singleton]
  cases c with
  | warn w =>
    have hrecord := h.record (hc w rfl)
    exact ⟨(recorded_warn log w).trans hrecord.recorded_eq, hrecord.separable⟩
  | record w => exact h.record (hc w rfl)
  | setQuiet quiet =>
    rw [if_neg (by simp), LogCall.warning?, Option.toList_none, List.append_nil]
    exact ⟨h.recorded_eq, h.separable⟩
  | clear => exact ⟨rfl, by simp⟩

lemma quiet_call (log : WarningLog) (c : LogCall) :
    (log.call c).quiet = c.quiet?.getD log.quiet := by
  cases c with
  | warn w => exact quiet_warn log w
  | record w =>
    rw [call, record_snd]
    cases log.contains w <;> rfl
  | setQuiet quiet => rfl
  | clear => rfl

lemma callAll_append_singleton (log : WarningLog) (calls : List LogCall) (c : LogCall) :
    log.callAll (calls ++ [c]) = (log.callAll calls).call c := by
  rw [callAll, List.foldl_append]
  rfl

lemma Has.callAll {calls more : List LogCall} (h : log.Has (raised calls))
    (hmore : ∀ w ∈ more.filterMap warning?, w.Separable) :
    (log.callAll more).Has (raised (calls ++ more)) := by
  induction more using List.reverseRecOn with
  | nil => rwa [List.append_nil]
  | append_singleton more c ih =>
    simp only [List.filterMap_append, List.mem_append] at hmore
    have hc : ∀ w ∈ c.warning?, w.Separable := by
      intro w hw
      exact hmore w (.inr (List.mem_filterMap.mpr ⟨c, List.mem_singleton_self c, hw⟩))
    rw [callAll_append_singleton, ← List.append_assoc]
    exact (ih fun w hw => hmore w (.inl hw)).call hc

lemma quiet_callAll (log : WarningLog) (calls : List LogCall) :
    (log.callAll calls).quiet = quietAfter log.quiet calls := by
  induction calls using List.reverseRecOn with
  | nil => rfl
  | append_singleton calls c ih =>
    rw [callAll_append_singleton, quiet_call, LogCall.quietAfter_append_singleton, ih]

/-! ### What is shown -/

lemma Has.shown_warn (h : log.Has ws) (hw : w.Separable) :
    (log.warn w).shown = log.shown ++ if w ∉ ws ∧ log.quiet = false then [w] else [] := by
  have hnew : log.contains w = false ↔ w ∉ ws := by
    rw [← h.contains_iff hw, Bool.not_eq_true]
  rw [shown_warn_eq]
  simp only [hnew]

lemma shown_call_of_ne (log : WarningLog) {c : LogCall} (hc : ∀ w, c ≠ .warn w) :
    (log.call c).shown = log.shown := by
  cases c with
  | warn w => exact absurd rfl (hc w)
  | record w =>
    rw [call, record_snd]
    cases log.contains w <;> rfl
  | setQuiet quiet => rfl
  | clear => rfl

/-- What was raised is not shown any more before the log is cleared, even if it never was shown. -/
lemma Has.silent {calls more : List LogCall} (h : log.Has (raised calls))
    (hmore : ∀ w ∈ more.filterMap warning?, w.Separable) (hclear : .clear ∉ more) :
    ∃ news, (log.callAll more).shown = log.shown ++ news ∧ ∀ w ∈ raised calls, w ∉ news := by
  induction more using List.reverseRecOn with
  | nil => exact ⟨[], (List.append_nil _).symm, by simp⟩
  | append_singleton more c ih =>
    simp only [List.filterMap_append, List.mem_append] at hmore
    rw [List.mem_append, not_or] at hclear
    obtain ⟨news, hshown, hnews⟩ := ih (fun w hw => hmore w (.inl hw)) hclear.1
    have hhas := h.callAll fun w hw => hmore w (.inl hw)
    rw [LogCall.raised_append_of_notMem calls hclear.1] at hhas
    rw [callAll_append_singleton]
    cases c with
    | warn w =>
      have hw : w.Separable := hmore w (.inr (by simp [LogCall.warning?]))
      have hwarn := hhas.shown_warn hw
      rw [hshown, List.append_assoc] at hwarn
      refine ⟨_, hwarn, ?_⟩
      intro v hv hmem
      rcases List.mem_append.mp hmem with hmem | hmem
      · exact hnews v hv hmem
      · split at hmem
        next hnew =>
          rw [List.mem_singleton.mp hmem] at hv
          exact hnew.1 (List.mem_append_left _ hv)
        next => contradiction
    | record w => exact ⟨news, by rwa [shown_call_of_ne _ (by simp)], hnews⟩
    | setQuiet quiet => exact ⟨news, by rwa [shown_call_of_ne _ (by simp)], hnews⟩
    | clear => exact ⟨news, by rwa [shown_call_of_ne _ (by simp)], hnews⟩

/-- After any calls to a cleared log, what it holds, how much that is, what is new to it and what it
shows all follow from the warnings raised since it was last cleared. -/
theorem remembers_calls (log : WarningLog) {calls : List LogCall}
    (h : ∀ w ∈ calls.filterMap warning?, w.Separable) :
    (log.clear.callAll calls).Remembers calls (quietAfter log.quiet calls) := by
  have hclear : log.clear.Has (raised []) := ⟨rfl, by simp [raised]⟩
  have hhas : (log.clear.callAll calls).Has (raised calls) := hclear.callAll h
  have hquiet : (log.clear.callAll calls).quiet = quietAfter log.quiet calls :=
    log.clear.quiet_callAll calls
  constructor
  · exact fun w hw => hhas.contains_iff hw
  · exact hhas.contains_iff_key
  · rw [count, hhas.recorded_eq, List.length_map]
  · intro w hw
    rw [record_fst, Bool.not_eq_true', ← Bool.not_eq_true, hhas.contains_iff hw]
  · intro w hw
    rw [← hquiet]
    exact hhas.shown_warn hw
  · exact fun c hc => shown_call_of_ne _ hc
  · exact fun more hmore hmem => hhas.silent hmore hmem

/-- A warning is raised while the log is quiet, and then another one with a bracket for a blank
behind its area. -/
def quietCalls : List LogCall :=
  [.record ⟨"cascade", "a"⟩, .clear, .setQuiet true, .warn ⟨"collect", "a"⟩, .setQuiet false,
    .record ⟨"collect]", "a] b"⟩, .warn ⟨"collect", "a"⟩]

theorem remembers_quietCalls :
    ∃ log, ({} : WarningLog).clear.callAll quietCalls = log ∧ log.Remembers quietCalls false ∧
      log.count = 2 ∧
      log.contains ⟨"collect]", "a] b"⟩ = true ∧ log.contains ⟨"collect", "] a] b"⟩ = false ∧
      (log.record ⟨"cascade", "a"⟩).1 = true ∧
      (log.warn ⟨"collect", "a"⟩).shown = log.shown ∧
      (log.warn ⟨"cascade", "a"⟩).shown = log.shown ++ [⟨"cascade", "a"⟩] := by
  have hseparable : ∀ w ∈ quietCalls.filterMap warning?, w.Separable := by decide
  have h := remembers_calls {} hseparable
  refine ⟨_, rfl, h, ?_, ?_, ?_, ?_, ?_, ?_⟩
  · rw [h.count_eq]
    decide
  · rw [h.contains_iff _ (by decide)]
    decide
  · rw [← Bool.not_eq_true, h.contains_iff _ (by decide)]
    decide
  · rw [h.isNew_iff _ (by decide)]
    decide
  · rw [h.shown_warn _ (by decide), if_neg (by decide), List.append_nil]
  · rw [h.shown_warn _ (by decide), if_pos (by decide)]

end WarningLog
end MediaSheets
