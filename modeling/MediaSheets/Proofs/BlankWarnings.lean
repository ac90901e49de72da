import MediaSheets.Proofs.LogHistory
import MediaSheets.Proofs.PlanHistory
import MediaSheets.Proofs.SharedLog

/-!
# Warnings about blank fragments

Of some submissions to the compilations of a workspace, those come off whose targets are all
registered, `Workspace.accepts`. A log that was cleared before them then holds one warning for each
blank fragment among theirs and nothing else. In everything but the log a blank fragment is one
like any other: `Workspace.NotesBlanks` has both.
-/

namespace MediaSheets

/-- Whether all fragments of a submission are for registered targets. -/
def Registry.accepts (r : Registry) (s : Submission) : Bool :=
  s.fragments.all fun f => (r.check f.target).isOk

namespace Workspace

def cleared (w : Workspace) : Workspace := { w with log := w.log.clear }

/-- Whether a submission is made to a compilation that accepts it. -/
def accepts (w : Workspace) (call : Nat × Submission) : Bool :=
  (w.registryAt call.1).any fun r => r.accepts call.2

end Workspace

/-- The submissions that came off, with the compilations they were made to. -/
def acceptedCalls (calls : List (Nat × Submission)) (outcomes : List (Except AuthoringError Unit)) :
    List (Nat × Submission) :=
  ((calls.zip outcomes).filter fun (_, outcome) => outcome.isOk).map Prod.fst

/-- The fragments of some submissions, in their order. -/
def fragmentsOf (ss : List Submission) : List Fragment := ss.flatMap Submission.fragments

/-- What has become of a workspace with a cleared log by the submissions in `accepted`, and what
more of them would do to it. -/
structure Workspace.NotesBlanks (w : Workspace) (accepted : List (Nat × Submission))
    (w' : Workspace) : Prop where
  contains_iff : ∀ message, w'.log.contains ⟨"collect", message⟩ = true ↔
    ∃ f ∈ fragmentsOf (accepted.map Prod.snd),
      (∀ ch ∈ f.text.toList, Text.isWhiteSpace ch = true) ∧
      message = "component `" ++ f.component ++ "` submitted a blank fragment for `" ++
        f.target.label ++ "`"
  recorded_eq : w'.log.recorded =
    distinct ((blankWarnings (fragmentsOf (accepted.map Prod.snd))).map Warning.key)
  refused : ∀ i s error, (w'.submit i s).1 = .error error → (w'.submit i s).2 = w'
  unmoved : ∀ i s, (∀ f ∈ s.fragments, ∃ ch ∈ f.text.toList, Text.isWhiteSpace ch = false) →
    (w'.submit i s).2.log = w'.log
  length_units : w'.units.length = w.units.length
  files : ∀ i c past, w.units[i]? = some c → c.Holds c.registry past →
    ∃ c', w'.units[i]? = some c' ∧
      c'.Holds c.registry (past ++ fragmentsOf (ownCalls i accepted)) ∧
      c'.inSubmissionOrder.map Filed.fragment = past ++ fragmentsOf (ownCalls i accepted) ∧
      ∀ mode, c'.plan mode = c.registry.planOf mode (past ++ fragmentsOf (ownCalls i accepted))

/-! ### Blank fragments -/

lemma blankWarnings_append (fs gs : List Fragment) :
    blankWarnings (fs ++ gs) = blankWarnings fs ++ blankWarnings gs := by
  rw [blankWarnings, List.filter_append, List.map_append]
  rfl

lemma mem_blankWarnings {fs : List Fragment} {v : Warning} :
    v ∈ blankWarnings fs ↔ ∃ f ∈ fs, Text.isBlank f.text = true ∧ blankWarning f = v := by
  simp [blankWarnings, and_assoc]

lemma blankWarnings_eq_nil {fs : List Fragment}
    (h : ∀ f ∈ fs, ∃ ch ∈ f.text.toList, Text.isWhiteSpace ch = false) : blankWarnings fs = [] := by
  rw [blankWarnings, List.map_eq_nil_iff, List.filter_eq_nil_iff]
  intro f hf hblank
  obtain ⟨ch, hch, hother⟩ := h f hf
  rw [List.all_eq_true.mp hblank ch hch] at hother
  contradiction

/-- Warnings about blank fragments are told apart by their messages. -/
lemma blankWarning_key_eq_iff {f : Fragment} {message : String} :
    (blankWarning f).key = (Warning.mk "collect" message).key ↔
      message = "component `" ++ f.component ++ "` submitted a blank fragment for `" ++
        f.target.label ++ "`" := by
  have hcollect : ¬"] ".toList <:+: "collect".toList := by decide
  have hseparable : ∀ message, (Warning.mk "collect" message).Separable := fun _ => hcollect
  rw [blankWarning, Warning.key_inj (hseparable _) (hseparable _), Warning.mk.injEq]
  constructor
  · rintro ⟨-, rfl⟩
    rfl
  · rintro rfl
    exact ⟨rfl, rfl⟩

/-! ### Accepted submissions -/

namespace Registry

variable (r : Registry)

lemma isOk_outcomeOf (s : Submission) : (r.outcomeOf s).isOk = r.accepts s := by
  have hok : ∀ x : Except AuthoringError Unit, x.isOk = true ↔ x = .ok () := by
    intro x
    cases x <;> simp [Except.isOk, Except.toBool]
  rw [Bool.eq_iff_iff, hok, outcomeOf, forM_eq_ok_iff, accepts, List.all_eq_true]
  simp only [hok]

lemma filedOf_eq (s : Submission) : r.filedOf s = if r.accepts s then s.fragments else [] := by
  rw [filedOf, ← isOk_outcomeOf]
  cases r.outcomeOf s <;> rfl

lemma warningsOf_eq (s : Submission) : r.warningsOf s = blankWarnings (r.filedOf s) := by
  rw [warningsOf, filedOf]
  cases r.outcomeOf s <;> rfl

lemma flatMap_filedOf (ss : List Submission) :
    ss.flatMap r.filedOf = fragmentsOf (ss.filter r.accepts) := by
  induction ss with
  | nil => rfl
  | cons s ss ih =>
    rw [List.flatMap_cons, ih, filedOf_eq, List.filter_cons, fragmentsOf, fragmentsOf]
    cases r.accepts s <;> rfl

end Registry

lemma acceptedCalls_map (calls : List (Nat × Submission))
    (outcome : Nat × Submission → Except AuthoringError Unit) :
    acceptedCalls calls (calls.map outcome) = calls.filter fun call => (outcome call).isOk := by
  induction calls with
  | nil => rfl
  | cons call calls ih =>
    rw [acceptedCalls] at ih ⊢
    rw [List.map_cons, List.zip_cons_cons, List.filter_cons, List.filter_cons, ← ih]
    simp only
    cases (outcome call).isOk <;> rfl

lemma ownCalls_filter (i : Nat) (calls : List (Nat × Submission)) (p : Nat × Submission → Bool) :
    ownCalls i (calls.filter p) = (ownCalls i calls).filter fun s => p (i, s) := by
  induction calls with
  | nil => rfl
  | cons call calls ih =>
    obtain ⟨j, s⟩ := call
    by_cases h : j = i
    · subst h
      rw [ownCalls_cons_self, List.filter_cons, List.filter_cons, ← ih]
      cases p (j, s) with
      | true => exact ownCalls_cons_self j s _
      | false => rfl
    · rw [ownCalls_cons_of_ne h, ← ih, List.filter_cons]
      cases p (j, s) with
      | true => exact ownCalls_cons_of_ne h s _
      | false => rfl

namespace Workspace

variable {w : Workspace}

lemma warningsOf_eq (call : Nat × Submission) :
    w.warningsOf call = if w.accepts call then blankWarnings call.2.fragments else [] := by
  rw [warningsOf, accepts]
  cases w.registryAt call.1 with
  | none => rfl
  | some r =>
    rw [Option.elim_some, Option.any_some, Registry.warningsOf_eq, Registry.filedOf_eq]
    cases r.accepts call.2 <;> rfl

lemma flatMap_warningsOf (calls : List (Nat × Submission)) :
    calls.flatMap w.warningsOf =
      blankWarnings (fragmentsOf ((calls.filter w.accepts).map Prod.snd)) := by
  induction calls with
  | nil => rfl
  | cons call calls ih =>
    rw [List.flatMap_cons, ih, warningsOf_eq, List.filter_cons]
    cases w.accepts call with
    | false => rfl
    | true => exact (blankWarnings_append _ _).symm

lemma isOk_outcomeOf (w : Workspace) {call : Nat × Submission} (h : call.1 < w.units.length) :
    (w.outcomeOf call).isOk = w.accepts call := by
  have hregistry : w.registryAt call.1 = some w.units[call.1].registry := by
    rw [registryAt, List.getElem?_eq_getElem h, Option.map_some]
  rw [outcomeOf, accepts, hregistry]
  exact Registry.isOk_outcomeOf _ call.2

/-! ### One submission -/

/-- A submission that is refused leaves everything as it was, the log too. -/
lemma submit_of_error {i : Nat} {s : Submission} {error : AuthoringError}
    (h : (w.submit i s).1 = .error error) : (w.submit i s).2 = w := by
  have houtcome : w.outcomeOf (i, s) = .error error := by
    rw [submit_eq] at h
    exact h
  have hrefused : w.accepts (i, s) = false := by
    by_cases hi : i < w.units.length
    · rw [← w.isOk_outcomeOf hi, houtcome]
      rfl
    · rw [accepts, registryAt, List.getElem?_eq_none (Nat.le_of_not_lt hi)]
      rfl
  have hunits : (w.units.mapIdx fun j c => if j = i then c.next s else c) = w.units := by
    apply mapIdx_eq_self
    intro j hj
    by_cases hji : j = i
    · subst hji
      rw [outcomeOf, registryAt, List.getElem?_eq_getElem hj, Option.map_some,
        Option.elim_some] at houtcome
      rw [if_pos rfl, Compilation.next, houtcome]
    · rw [if_neg hji]
  rw [submit_eq, hunits, warningsOf_eq, hrefused]
  rfl

lemma log_submit_of_not_blank {s : Submission}
    (h : ∀ f ∈ s.fragments, ∃ ch ∈ f.text.toList, Text.isWhiteSpace ch = false) (i : Nat) :
    (w.submit i s).2.log = w.log := by
  rw [submit_eq, warningsOf_eq, blankWarnings_eq_nil h, ite_self]
  rfl

/-! ### Runs -/

lemma recorded_submitAll (w : Workspace) (calls : List (Nat × Submission)) :
    (w.cleared.submitAll calls).2.log.recorded =
      distinct ((blankWarnings (fragmentsOf ((calls.filter w.accepts).map Prod.snd))).map
        Warning.key) := by
  have hwarnings : calls.flatMap w.cleared.warningsOf = calls.flatMap w.warningsOf := rfl
  have hclear : w.cleared.log.recorded = [] := rfl
  rw [submitAll_eq, WarningLog.recorded_warnAll, hwarnings, flatMap_warningsOf, hclear]
  simp

lemma contains_submitAll_iff (w : Workspace) (calls : List (Nat × Submission)) (message : String) :
    (w.cleared.submitAll calls).2.log.contains ⟨"collect", message⟩ = true ↔
      ∃ f ∈ fragmentsOf ((calls.filter w.accepts).map Prod.snd),
        (∀ ch ∈ f.text.toList, Text.isWhiteSpace ch = true) ∧
        message = "component `" ++ f.component ++ "` submitted a blank fragment for `" ++
          f.target.label ++ "`" := by
  rw [WarningLog.contains, recorded_submitAll, List.contains_iff_mem, mem_distinct, List.mem_map]
  simp only [← blankWarning_key_eq_iff]
  constructor
  · rintro ⟨v, hv, hkey⟩
    obtain ⟨f, hf, hblank, rfl⟩ := mem_blankWarnings.mp hv
    exact ⟨f, hf, List.all_eq_true.mp hblank, hkey⟩
  · rintro ⟨f, hf, hblank, hkey⟩
    exact ⟨_, mem_blankWarnings.mpr ⟨f, hf, List.all_eq_true.mpr hblank, rfl⟩, hkey⟩

/-- A compilation files what its accepted submissions have, blank or not. -/
lemma holds_submitAll (calls : List (Nat × Submission)) {i : Nat} {c : Compilation}
    {past : List Fragment} (hi : w.units[i]? = some c) (hc : c.Holds c.registry past) :
    ∃ c', (w.cleared.submitAll calls).2.units[i]? = some c' ∧
      c'.Holds c.registry (past ++ fragmentsOf (ownCalls i (calls.filter w.accepts))) := by
  have haccepts : (fun s => w.accepts (i, s)) = c.registry.accepts := by
    funext s
    rw [accepts, registryAt, hi]
    rfl
  have hnext := hc.foldl_next (ownCalls i calls)
  rw [Registry.flatMap_filedOf, ← haccepts, ← ownCalls_filter] at hnext
  refine ⟨_, ?_, hnext⟩
  rw [submitAll_eq, List.getElem?_mapIdx, cleared, hi]
  rfl

/-- A cleared log comes to hold exactly the warnings about the blank fragments of the submissions
that came off, and a warning is all that sets such a fragment apart. -/
theorem notes_blanks (w : Workspace) (calls : List (Nat × Submission))
    (hcalls : ∀ call ∈ calls, call.1 < w.units.length) :
    ∃ outcomes w', w.cleared.submitAll calls = (outcomes, w') ∧
      outcomes.length = calls.length ∧
      acceptedCalls calls outcomes = calls.filter w.accepts ∧
      w.NotesBlanks (acceptedCalls calls outcomes) w' := by
  have hrun := submitAll_eq w.cleared calls
  have haccepted :
      acceptedCalls calls (w.cleared.submitAll calls).1 = calls.filter w.accepts := by
    rw [hrun, acceptedCalls_map]
    apply List.filter_congr
    intro call hcall
    exact w.cleared.isOk_outcomeOf (hcalls call hcall)
  refine ⟨_, _, rfl, ?_, haccepted, ?_⟩
  · rw [hrun, List.length_map]
  rw [haccepted]
  constructor
  · exact contains_submitAll_iff w calls
  · exact recorded_submitAll w calls
  · exact fun i s error h => submit_of_error h
  · exact fun i s h => log_submit_of_not_blank h i
  · rw [hrun, List.length_mapIdx]
    rfl
  · intro i c past hi hc
    obtain ⟨c', hi', hc'⟩ := holds_submitAll calls hi hc
    refine ⟨c', hi', hc', ?_, fun mode => hc'.plan_eq mode⟩
    rw [hc'.inSubmissionOrder_eq, map_fragment_filedHistory]

/-- Two compilations, of which only the first has breakpoints, and a log that was used before. -/
def mixedAndPlain : Workspace where
  registry := .mixed
  units := [.start .mixed, .start (.empty 0)]
  log := ({} : WarningLog).warn ⟨"collect", "earlier"⟩

/-- A warning is raised twice, and the last two submissions are refused with their blanks. -/
def blankCalls : List (Nat × Submission) :=
  [(0, .fragment ⟨"card", .universal, " \n"⟩), (1, .fragment ⟨"card", .universal, ""⟩),
    (0, .component ⟨"menu", [⟨.breakpoint "wide", "\t"⟩, ⟨.universal, "a"⟩]⟩),
    (1, .component ⟨"menu", [⟨.universal, " "⟩, ⟨.breakpoint "wide", "b"⟩]⟩),
    (0, .fragment ⟨"menu", .breakpoint "gone", ""⟩)]

theorem notes_blanks_of_mixedAndPlain :
    ∃ outcomes w', mixedAndPlain.cleared.submitAll blankCalls = (outcomes, w') ∧
      mixedAndPlain.NotesBlanks (blankCalls.take 3) w' ∧
      w'.log.recorded = ["[collect] component `card` submitted a blank fragment for `universal`",
        "[collect] component `menu` submitted a blank fragment for `wide`"] := by
  have hcalls : ∀ call ∈ blankCalls, call.1 < mixedAndPlain.units.length := by decide
  have haccepts : blankCalls.filter mixedAndPlain.accepts = blankCalls.take 3 := by decide
  obtain ⟨outcomes, w', hrun, -, haccepted, hnotes⟩ :=
    mixedAndPlain.notes_blanks blankCalls hcalls
  rw [haccepted, haccepts] at hnotes
  refine ⟨outcomes, w', hrun, hnotes, ?_⟩
  rw [hnotes.recorded_eq]
  decide

end Workspace
end MediaSheets
