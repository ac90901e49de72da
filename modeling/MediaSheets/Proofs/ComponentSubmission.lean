import MediaSheets.Plan
import MediaSheets.Proofs.FirstFailure
import MediaSheets.Proofs.Registration
import MediaSheets.Proofs.SubmissionHistory

/-!
# Submission of components

A component is accepted as a whole or refused as a whole. `Registry.Knows` says of a target
that rules can be meant for it; a component is accepted when all its targets are known, and
then leaves what its fragments leave when each is submitted on its own. Otherwise the first
unknown name is reported and everything stays as it was.
-/

namespace MediaSheets

/-- Rules can be meant for everything, and for the registered breakpoints. -/
def Registry.Knows (r : Registry) : Target → Prop
  | .universal => True
  | .breakpoint name => ∃ b ∈ r.breakpoints, b.name = name

instance (r : Registry) (t : Target) : Decidable (r.Knows t) :=
  match t with
  | .universal => inferInstanceAs (Decidable True)
  | .breakpoint name => inferInstanceAs (Decidable (∃ b ∈ r.breakpoints, b.name = name))

/-- The name is that of the first fragment whose target is not known. -/
def Registry.FirstUnknown (r : Registry) (fs : List Fragment) (name : String) : Prop :=
  ∃ before f after, fs = before ++ f :: after ∧ (∀ g ∈ before, r.Knows g.target) ∧
    f.target = .breakpoint name ∧ ¬r.Knows f.target

namespace Registry.WellFormed

variable {r : Registry} (hr : r.WellFormed)
include hr

lemma check_eq_ok_iff_knows {t : Target} : r.check t = .ok () ↔ r.Knows t := by
  rw [check_eq_ok_iff]
  cases t with
  | universal => simp [Knows]
  | breakpoint name =>
    have hcontains : r.contains name = true ↔ r.Knows (.breakpoint name) := by
      rw [hr.contains_iff, Knows]
      simp [breakpoints]
    simpa using hcontains

lemma check_eq_error_iff {t : Target} {error : AuthoringError} :
    r.check t = .error error ↔
      ∃ name, t = .breakpoint name ∧ ¬r.Knows t ∧ error = .unknownBreakpoint name := by
  rw [← hr.check_eq_ok_iff_knows]
  cases t with
  | universal => simp [check]
  | breakpoint name =>
    cases hname : r.contains name with
    | true => simp [check, hname]
    | false => simp [check, hname, eq_comm]

end Registry.WellFormed

namespace Compilation

/-! ### Procedures -/

lemma run_bind (p q : Procedure) (state : Compilation × WarningLog) :
    (p >>= fun _ => q).run.run state =
      match p.run.run state with
      | (.ok (), state') => q.run.run state'
      | (.error error, state') => (.error error, state') := by
  have hrun : (p >>= fun _ => q).run.run state =
      (ExceptT.bindCont (fun _ => q) (p.run.run state).1).run (p.run.run state).2 := rfl
  rw [hrun]
  cases h : p.run.run state with
  | mk outcome state' =>
    cases outcome with
    | error error => rfl
    | ok u => rfl

lemma run_checkInPlace (f : Fragment) (c : Compilation) (log : WarningLog) :
    (checkInPlace f).run.run (c, log) = (c.check f, c, log) := by
  have hrun : (checkInPlace f).run.run (c, log) =
      (MonadExcept.ofExcept (c.check f) : Procedure).run.run (c, log) := rfl
  rw [hrun]
  cases c.check f with
  | error error => rfl
  | ok u => rfl

/-- Submitting in place files the fragment as a whole, or leaves everything as it was. -/
lemma run_submitInPlace (f : Fragment) (c : Compilation) (log : WarningLog) :
    (submitInPlace f).run.run (c, log) =
      match c.submit log f with
      | .ok state => (.ok (), state)
      | .error error => (.error error, c, log) := by
  rw [submitInPlace, run_bind, run_checkInPlace, submit]
  cases c.check f with
  | error error => rfl
  | ok u =>
    cases Text.isBlank f.text with
    | false => rfl
    | true => rfl

lemma run_forM_cons (p : Fragment → Procedure) (f : Fragment) (fs : List Fragment)
    (state : Compilation × WarningLog) :
    ((f :: fs).forM p).run.run state =
      match (p f).run.run state with
      | (.ok (), state') => (fs.forM p).run.run state'
      | (.error error, state') => (.error error, state') :=
  run_bind (p f) (fs.forM p) state

/-- Looking at fragments changes nothing. -/
lemma run_forM_checkInPlace (fs : List Fragment) (c : Compilation) (log : WarningLog) :
    (fs.forM checkInPlace).run.run (c, log) = (fs.forM c.check, c, log) := by
  induction fs with
  | nil => rfl
  | cons f fs ih =>
    have hstep : (f :: fs).forM c.check = (c.check f >>= fun _ => fs.forM c.check) := rfl
    rw [run_forM_cons, run_checkInPlace, hstep]
    cases c.check f with
    | error error => rfl
    | ok u => exact ih

/-- Fragments that are all accepted leave in place what they leave as values. -/
lemma run_forM_submitInPlace {fs : List Fragment} {c : Compilation} {log : WarningLog}
    {state : Compilation × WarningLog} (h : c.submitAll log fs = .ok state) :
    (fs.forM submitInPlace).run.run (c, log) = (.ok (), state) := by
  induction fs generalizing c log with
  | nil =>
    obtain rfl := Except.ok.inj h
    rfl
  | cons f fs ih =>
    obtain ⟨c₁, log₁, hf, hfs⟩ := submitAll_cons_eq_ok_iff.mp h
    rw [run_forM_cons, run_submitInPlace, hf]
    exact ih hfs

/-! ### Submissions -/

lemma receive_fragment (c : Compilation) (log : WarningLog) (f : Fragment) :
    c.receive log (.fragment f) =
      match c.submit log f with
      | .ok state => (.ok (), state)
      | .error error => (.error error, c, log) :=
  run_submitInPlace f c log

lemma receiveAll_of_submitAll {fs : List Fragment} {c : Compilation} {log : WarningLog}
    {state : Compilation × WarningLog} (h : c.submitAll log fs = .ok state) :
    c.receiveAll log (fs.map .fragment) = (fs.map fun _ => .ok (), state) := by
  induction fs generalizing c log with
  | nil =>
    obtain rfl := Except.ok.inj h
    rfl
  | cons f fs ih =>
    obtain ⟨c₁, log₁, hf, hfs⟩ := submitAll_cons_eq_ok_iff.mp h
    rw [List.map_cons, receiveAll, receive_fragment, hf]
    simp only [ih hfs, List.map_cons]

lemma exists_submitAll_of_forM_check {c : Compilation} {fs : List Fragment}
    (h : fs.forM c.check = .ok ()) (log : WarningLog) :
    ∃ state, c.submitAll log fs = .ok state := by
  obtain ⟨c', log', hfs⟩ := exists_submitAll (forM_eq_ok_iff.mp h) log
  exact ⟨(c', log'), hfs⟩

/-- A component that gets past the first look is accepted, with what its fragments leave one
by one. -/
lemma receive_component_of_ok {c : Compilation} {component : Component} {log : WarningLog}
    (h : component.fragments.forM c.check = .ok ()) {state : Compilation × WarningLog}
    (hstate : c.submitAll log component.fragments = .ok state) :
    c.receive log (.component component) = (.ok (), state) := by
  have hrun : c.receive log (.component component) =
      (submitComponentInPlace component).run.run (c, log) := rfl
  rw [hrun, submitComponentInPlace, run_bind, run_forM_checkInPlace, h]
  exact run_forM_submitInPlace hstate

lemma receive_component_of_error {c : Compilation} {component : Component} {log : WarningLog}
    {error : AuthoringError} (h : component.fragments.forM c.check = .error error) :
    c.receive log (.component component) = (.error error, c, log) := by
  have hrun : c.receive log (.component component) =
      (submitComponentInPlace component).run.run (c, log) := rfl
  rw [hrun, submitComponentInPlace, run_bind, run_forM_checkInPlace, h]

lemma receive_component_eq_ok_iff {c : Compilation} {component : Component} {log : WarningLog}
    {state : Compilation × WarningLog} :
    c.receive log (.component component) = (.ok (), state) ↔
      component.fragments.forM c.check = .ok () ∧
        c.submitAll log component.fragments = .ok state := by
  cases hlook : component.fragments.forM c.check with
  | error error => simp [receive_component_of_error hlook]
  | ok u =>
    obtain ⟨state', hstate'⟩ := exists_submitAll_of_forM_check hlook log
    simp [receive_component_of_ok hlook hstate', hstate']

lemma receive_component_eq_error_iff {c : Compilation} {component : Component} {log : WarningLog}
    {error : AuthoringError} {state : Compilation × WarningLog} :
    c.receive log (.component component) = (.error error, state) ↔
      component.fragments.forM c.check = .error error ∧ state = (c, log) := by
  cases hlook : component.fragments.forM c.check with
  | error error' => simp [receive_component_of_error hlook, eq_comm]
  | ok u =>
    obtain ⟨state', hstate'⟩ := exists_submitAll_of_forM_check hlook log
    simp [receive_component_of_ok hlook hstate']

lemma forM_check_eq_error_iff {c : Compilation} (hr : c.registry.WellFormed) {fs : List Fragment}
    {error : AuthoringError} :
    fs.forM c.check = .error error ↔
      ∃ name, c.registry.FirstUnknown fs name ∧ error = .unknownBreakpoint name := by
  simp only [forM_eq_error_iff, check, hr.check_eq_ok_iff_knows, hr.check_eq_error_iff]
  constructor
  · rintro ⟨before, f, after, hfs, hbefore, name, hf, hunknown, rfl⟩
    exact ⟨name, ⟨before, f, after, hfs, hbefore, hf, hunknown⟩, rfl⟩
  · rintro ⟨name, ⟨before, f, after, hfs, hbefore, hf, hunknown⟩, rfl⟩
    exact ⟨before, f, after, hfs, hbefore, name, hf, hunknown, rfl⟩

/-- When all fragments get past the first look, each of them is accepted when its turn comes. -/
lemma submitInPlace_of_forM_check {c : Compilation} {log : WarningLog} {before after : List Fragment}
    {f : Fragment} (h : (before ++ f :: after).forM c.check = .ok ()) :
    ∃ state state', (before.forM submitInPlace).run.run (c, log) = (.ok (), state) ∧
      (submitInPlace f).run.run state = (.ok (), state') := by
  obtain ⟨last, hlast⟩ := exists_submitAll_of_forM_check h log
  rw [submitAll, List.foldlM_append, bind_eq_ok_iff] at hlast
  obtain ⟨⟨c₁, log₁⟩, hbefore, hrest⟩ := hlast
  obtain ⟨c₂, log₂, hf, -⟩ := submitAll_cons_eq_ok_iff.mp hrest
  refine ⟨(c₁, log₁), (c₂, log₂), run_forM_submitInPlace hbefore, ?_⟩
  rw [run_submitInPlace, hf]

/-- A component is accepted exactly when all its targets are known, and it then leaves what its
fragments leave one by one. Otherwise the first unknown name is reported, and everything is as
before. No fragment is refused after the first look at all of them. -/
theorem component_all_or_nothing {c : Compilation} (hr : c.registry.Reachable) (log : WarningLog)
    (component : Component) :
    ((∃ state, c.receive log (.component component) = (.ok (), state)) ↔
        ∀ f ∈ component.fragments, c.registry.Knows f.target) ∧
      (∀ state, c.receive log (.component component) = (.ok (), state) →
        c.receiveAll log (component.fragments.map .fragment) =
          (component.fragments.map fun _ => .ok (), state)) ∧
      (∀ error state, c.receive log (.component component) = (.error error, state) ↔
        ∃ name, c.registry.FirstUnknown component.fragments name ∧
          error = .unknownBreakpoint name ∧ state = (c, log)) ∧
      ∀ state, (component.fragments.forM checkInPlace).run.run (c, log) = (.ok (), state) →
        ∀ before f after, component.fragments = before ++ f :: after →
          ∃ state₁ state₂, (before.forM submitInPlace).run.run state = (.ok (), state₁) ∧
            (submitInPlace f).run.run state₁ = (.ok (), state₂) := by
  have hw := hr.wellFormed
  refine ⟨?_, ?_, ?_, ?_⟩
  · simp only [receive_component_eq_ok_iff, exists_and_left]
    constructor
    · rintro ⟨hlook, -⟩ f hf
      exact hw.check_eq_ok_iff_knows.mp (forM_eq_ok_iff.mp hlook f hf)
    · intro hknown
      have hlook : component.fragments.forM c.check = .ok () :=
        forM_eq_ok_iff.mpr fun f hf => hw.check_eq_ok_iff_knows.mpr (hknown f hf)
      exact ⟨hlook, exists_submitAll_of_forM_check hlook log⟩
  · intro state h
    exact receiveAll_of_submitAll (receive_component_eq_ok_iff.mp h).2
  · intro error state
    rw [receive_component_eq_error_iff, forM_check_eq_error_iff hw]
    constructor
    · rintro ⟨⟨name, hname, rfl⟩, rfl⟩
      exact ⟨name, hname, rfl, rfl⟩
    · rintro ⟨name, hname, rfl, rfl⟩
      exact ⟨⟨name, hname, rfl⟩, rfl⟩
  · intro state hlook before f after hfragments
    rw [run_forM_checkInPlace, Prod.mk.injEq] at hlook
    obtain ⟨hlook, rfl⟩ := hlook
    rw [hfragments] at hlook
    exact submitInPlace_of_forM_check hlook

/-- An empty rule and a good one in front of an unknown name leave no trace. Without that name
they are accepted as they would be one by one, and come into the blocks of their targets. -/
theorem component_of_mixed :
    ∃ c : Compilation, c.submitted = 1 ∧ c.registry.Reachable ∧
      c.receive {} (.component ⟨"card", [⟨.universal, ""⟩, ⟨.breakpoint "wide", "a"⟩,
        ⟨.breakpoint "nowhere", "b"⟩, ⟨.breakpoint "gone", "c"⟩]⟩) =
          (.error (.unknownBreakpoint "nowhere"), c, {}) ∧
      ∃ state, state.1.submitted = 3 ∧ state.2.count = 1 ∧
        (state.1.plan .modern).map Block.body = ["", "m\na"] ∧
        c.receive {} (.component ⟨"card", [⟨.universal, ""⟩, ⟨.breakpoint "wide", "a"⟩]⟩) =
          (.ok (), state) ∧
        c.receiveAll {} [.fragment ⟨"card", .universal, ""⟩,
          .fragment ⟨"card", .breakpoint "wide", "a"⟩] = ([.ok (), .ok ()], state) := by
  let c := (start .mixed).file ⟨"menu", .breakpoint "wide", "m"⟩
  have hr : c.registry.Reachable := Registry.mixed_reachable
  refine ⟨c, rfl, hr, ?_, ?_⟩
  · refine ((component_all_or_nothing hr {} _).2.2.1 _ _).mpr ⟨"nowhere", ?_, rfl, rfl⟩
    refine ⟨[⟨"card", .universal, ""⟩, ⟨"card", .breakpoint "wide", "a"⟩], _, _, rfl, ?_, rfl, ?_⟩
    · decide
    · decide
  · have hok : c.receive {} (.component ⟨"card", [⟨.universal, ""⟩, ⟨.breakpoint "wide", "a"⟩]⟩) =
        (.ok (), _) := rfl
    exact ⟨_, rfl, by decide, rfl, hok, (component_all_or_nothing hr {} _).2.1 _ hok⟩

end Compilation
end MediaSheets
