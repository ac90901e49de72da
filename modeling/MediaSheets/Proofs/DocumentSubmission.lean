import MediaSheets.Proofs.AcceptedSubmissions

/-!
# Documents as lists of fragments

A document is submitted component by component, up to the first that is refused. `Registry.Takes`
says what becomes of it: it is taken whole, as its fragments one by one would be, or it breaks off
at the component with the first unknown name and leaves what comes before that component. How the
rules are grouped into components therefore shows in a failure alone, and not in its error.
-/

namespace MediaSheets

/-- A component put together rule by rule. -/
def Component.assemble (id : String) (rules : List Rule) : Component :=
  rules.foldl (fun c rule => c.add rule.target rule.text) { id }

/-- The components of a document, put together for submission. -/
def SourceDocument.assembled (d : SourceDocument) : List Component :=
  d.components.map fun c => .assemble c.id c.rules

open Compilation (Intake)

/-- What came of submitting components. -/
def Compilation.Intake.outcome (intake : Intake) : Except AuthoringError Unit :=
  match intake.refused with
  | none => .ok ()
  | some (_, error) => .error error

/-- What becomes of a document that is submitted to a new compilation. -/
inductive Registry.Takes (r : Registry) (log : WarningLog) (d : SourceDocument) : Intake → Prop
  | whole {c : Compilation} {log' : WarningLog} (hknown : ∀ f ∈ d.fragments, r.Knows f.target)
      (hrun : (Compilation.start r).receiveAll log (d.fragments.map .fragment) =
        (d.fragments.map fun _ => .ok (), c, log')) :
      Takes r log d ⟨c, log', d.components.length, none⟩
  | upTo {before after : List Component} {component : Component} {name : String}
      {c : Compilation} {log' : WarningLog}
      (hcomponents : d.components = before ++ component :: after)
      (hfirst : r.FirstUnknown d.fragments name)
      (hhere : r.FirstUnknown component.fragments name)
      (hrun : (Compilation.start r).receiveAll log
          ((before.flatMap Component.fragments).map .fragment) =
        ((before.flatMap Component.fragments).map fun _ => .ok (), c, log'))
      (hcollects : c.Collects (before.flatMap Component.fragments)) :
      Takes r log d ⟨c, log', before.length, some (component, .unknownBreakpoint name)⟩

/-! ### Components -/

lemma Component.assemble_self (c : Component) : assemble c.id c.rules = c := by
  have hfold : ∀ (rules : List Rule) (start : Component),
      rules.foldl (fun c rule => c.add rule.target rule.text) start =
        ⟨start.id, start.rules ++ rules⟩ := by
    intro rules
    induction rules with
    | nil => simp
    | cons rule rules ih =>
      intro start
      rw [List.foldl_cons, ih, Component.add, List.append_assoc]
      rfl
  rw [assemble, hfold]
  rfl

lemma SourceDocument.assembled_eq (d : SourceDocument) : d.assembled = d.components := by
  rw [assembled, funext Component.assemble_self]
  exact List.map_id _

lemma forM_flatMap {ε α β : Type} (check : β → Except ε Unit) (f : α → List β) (l : List α) :
    (l.flatMap f).forM check = l.forM fun a => (f a).forM check := by
  induction l with
  | nil => rfl
  | cons a l ih =>
    have hstep : (a :: l).forM (fun a => (f a).forM check) =
        ((f a).forM check >>= fun _ => l.forM fun a => (f a).forM check) := rfl
    rw [List.flatMap_cons, hstep, ← ih]
    exact List.forM_append

namespace Compilation

lemma check_of_submitAll {c : Compilation} {log : WarningLog} {fs : List Fragment}
    {state : Compilation × WarningLog} (h : c.submitAll log fs = .ok state) :
    fs.forM c.check = .ok () ∧ state.1.registry = c.registry := by
  induction fs generalizing c log with
  | nil =>
    obtain rfl := Except.ok.inj h
    exact ⟨rfl, rfl⟩
  | cons f fs ih =>
    obtain ⟨c₁, log₁, hf, hfs⟩ := submitAll_cons_eq_ok_iff.mp h
    obtain ⟨hcheck, rfl, -⟩ := submit_eq_ok_iff.mp hf
    obtain ⟨hrest, hregistry⟩ := ih hfs
    refine ⟨?_, hregistry⟩
    rw [forM_eq_ok_iff] at hrest ⊢
    exact List.forall_mem_cons.mpr ⟨hcheck, hrest⟩

lemma submitComponent_of_submitAll {c : Compilation} {log : WarningLog} {component : Component}
    {state : Compilation × WarningLog} (h : c.submitAll log component.fragments = .ok state) :
    c.submitComponent log component = .ok state := by
  rw [submitComponent, (check_of_submitAll h).1]
  exact h

lemma submitComponent_of_error {c : Compilation} {log : WarningLog} {component : Component}
    {error : AuthoringError} (h : component.fragments.forM c.check = .error error) :
    c.submitComponent log component = .error error := by
  rw [submitComponent, h]
  rfl

lemma receive_component (c : Compilation) (log : WarningLog) (component : Component) :
    c.receive log (.component component) =
      match c.submitComponent log component with
      | .ok state => (.ok (), state)
      | .error error => (.error error, c, log) := by
  cases hlook : component.fragments.forM c.check with
  | error error =>
    rw [submitComponent_of_error hlook, receive_component_of_error hlook]
  | ok u =>
    obtain ⟨state, hstate⟩ := exists_submitAll_of_forM_check hlook log
    rw [submitComponent_of_submitAll hstate, receive_component_of_ok hlook hstate]

/-! ### Lists of components -/

/-- Components that are accepted leave what their fragments leave one by one, and the others are
submitted after them. -/
lemma submitComponents_append {c c' : Compilation} {log log' : WarningLog}
    {before : List Component}
    (h : c.submitAll log (before.flatMap Component.fragments) = .ok (c', log'))
    (after : List Component) :
    c.submitComponents log (before ++ after) =
      { c'.submitComponents log' after with
        accepted := before.length + (c'.submitComponents log' after).accepted } := by
  induction before generalizing c log with
  | nil =>
    obtain ⟨rfl, rfl⟩ := Prod.mk.inj (Except.ok.inj h)
    simp
  | cons component before ih =>
    rw [List.flatMap_cons, submitAll, List.foldlM_append, bind_eq_ok_iff] at h
    obtain ⟨⟨c₁, log₁⟩, hcomponent, hbefore⟩ := h
    rw [List.cons_append, submitComponents, submitComponent_of_submitAll hcomponent]
    simp only [ih hbefore, List.length_cons]
    congr 1
    omega

/-- Components are submitted as values the way they are submitted in place. -/
lemma run_forM_submitComponentInPlace (components : List Component) (c : Compilation)
    (log : WarningLog) :
    (components.forM submitComponentInPlace).run.run (c, log) =
      ((c.submitComponents log components).outcome,
        (c.submitComponents log components).compilation,
        (c.submitComponents log components).log) := by
  induction components generalizing c log with
  | nil => rfl
  | cons component components ih =>
    have hstep : ((component :: components).forM submitComponentInPlace).run.run (c, log) =
        match c.receive log (.component component) with
        | (.ok (), state) => (components.forM submitComponentInPlace).run.run state
        | (.error error, state) => (.error error, state) :=
      run_bind (submitComponentInPlace component) (components.forM submitComponentInPlace) (c, log)
    rw [hstep, receive_component, submitComponents]
    cases c.submitComponent log component with
    | error error => rfl
    | ok state => exact ih state.1 state.2

lemma submitComponents_of_ok {c : Compilation} {log : WarningLog} {components : List Component}
    {state : Compilation × WarningLog}
    (h : c.submitAll log (components.flatMap Component.fragments) = .ok state) :
    c.submitComponents log components = ⟨state.1, state.2, components.length, none⟩ := by
  have happend := submitComponents_append h []
  rw [List.append_nil] at happend
  exact happend

lemma submitComponents_of_error {c : Compilation} {log : WarningLog}
    {before after : List Component} {component : Component} {error : AuthoringError}
    {state : Compilation × WarningLog}
    (h : c.submitAll log (before.flatMap Component.fragments) = .ok state)
    (herror : component.fragments.forM c.check = .error error) :
    c.submitComponents log (before ++ component :: after) =
      ⟨state.1, state.2, before.length, some (component, error)⟩ := by
  have hcheck : state.1.check = c.check := by
    funext f
    rw [check, (check_of_submitAll h).2, check]
  rw [submitComponents_append h, submitComponents, submitComponent_of_error (by rwa [hcheck])]
  rfl

/-- The look at all fragments together decides how components come off. -/
lemma outcome_submitComponents (c : Compilation) (log : WarningLog) (components : List Component) :
    (c.submitComponents log components).outcome =
      (components.flatMap Component.fragments).forM c.check := by
  cases hlook : (components.flatMap Component.fragments).forM c.check with
  | ok u =>
    obtain ⟨state, hstate⟩ := exists_submitAll_of_forM_check hlook log
    rw [submitComponents_of_ok hstate]
    rfl
  | error error =>
    rw [forM_flatMap, forM_eq_error_iff] at hlook
    obtain ⟨before, component, after, rfl, hbefore, herror⟩ := hlook
    rw [← forM_eq_ok_iff, ← forM_flatMap] at hbefore
    obtain ⟨state, hstate⟩ := exists_submitAll_of_forM_check hbefore log
    rw [submitComponents_of_error hstate herror]
    rfl

lemma collects_of_submitAll {r : Registry} {c : Compilation} {log log' : WarningLog}
    {fs : List Fragment} (h : (start r).submitAll log fs = .ok (c, log')) : c.Collects fs := by
  have hstart : (start r).buckets.map Prod.fst =
      distinct (([] : List Fragment).map Fragment.target) := rfl
  exact (holds_of_submitAll h).collects (map_fst_buckets_of_submitAll hstart h)

end Compilation

open Compilation

lemma Registry.Reachable.takes {r : Registry} (hr : r.Reachable) (log : WarningLog)
    (d : SourceDocument) : r.Takes log d ((start r).submitComponents log d.components) := by
  have hw : (start r).registry.WellFormed := hr.wellFormed
  cases hlook : d.fragments.forM (start r).check with
  | ok u =>
    obtain ⟨state, hstate⟩ := exists_submitAll_of_forM_check hlook log
    rw [submitComponents_of_ok hstate]
    refine .whole ?_ (receiveAll_of_submitAll hstate)
    intro f hf
    exact hw.check_eq_ok_iff_knows.mp (forM_eq_ok_iff.mp hlook f hf)
  | error error =>
    obtain ⟨name, hfirst, rfl⟩ := (forM_check_eq_error_iff hw).mp hlook
    rw [SourceDocument.fragments, forM_flatMap, forM_eq_error_iff] at hlook
    obtain ⟨before, component, after, hcomponents, hbefore, herror⟩ := hlook
    obtain ⟨name', hhere, heq⟩ := (forM_check_eq_error_iff hw).mp herror
    -- the first unknown name of the document is that of the component which is refused
    obtain rfl := AuthoringError.unknownBreakpoint.inj heq
    rw [← forM_eq_ok_iff, ← forM_flatMap] at hbefore
    obtain ⟨state, hstate⟩ := exists_submitAll_of_forM_check hbefore log
    rw [hcomponents, submitComponents_of_error hstate herror]
    exact .upTo hcomponents hfirst hhere (receiveAll_of_submitAll hstate)
      (collects_of_submitAll hstate)

/-- A document is taken as its fragments one by one, or up to the component with the first unknown
name. Documents with the same fragments come off alike, and leave the same if they are accepted. -/
theorem document_as_fragments {r : Registry} (hr : r.Reachable) (log : WarningLog)
    (d : SourceDocument) :
    ∃ intake : Intake,
      (d.assembled.forM submitComponentInPlace).run.run (start r, log) =
        (intake.outcome, intake.compilation, intake.log) ∧
      (start r).submitComponents log d.assembled = intake ∧
      r.Takes log d intake ∧
      ∀ d' : SourceDocument, d'.fragments = d.fragments →
        ∃ intake' : Intake, (start r).submitComponents log d'.assembled = intake' ∧
          intake'.outcome = intake.outcome ∧
          (intake.outcome = .ok () →
            intake'.compilation = intake.compilation ∧ intake'.log = intake.log) := by
  simp only [SourceDocument.assembled_eq]
  refine ⟨_, run_forM_submitComponentInPlace _ _ _, rfl, hr.takes log d, ?_⟩
  intro d' hfragments
  refine ⟨_, rfl, ?_, ?_⟩
  · rw [outcome_submitComponents, outcome_submitComponents]
    exact congrArg (List.forM · _) hfragments
  · intro hok
    rw [outcome_submitComponents] at hok
    obtain ⟨state, hstate⟩ := exists_submitAll_of_forM_check hok log
    have hstate' : (start r).submitAll log d'.fragments = .ok state := by
      rw [hfragments]
      exact hstate
    rw [submitComponents_of_ok hstate, submitComponents_of_ok hstate']
    exact ⟨rfl, rfl⟩

/-- The rules of one component over three entries, one of them empty. -/
def splitDocument : SourceDocument where
  components :=
    [⟨"card", [⟨.breakpoint "wide", "a"⟩]⟩, ⟨"menu", []⟩,
      ⟨"card", [⟨.universal, "b"⟩, ⟨.breakpoint "nowhere", "c"⟩, ⟨.breakpoint "gone", "d"⟩]⟩]

def joinedDocument : SourceDocument where
  components :=
    [⟨"card", [⟨.breakpoint "wide", "a"⟩, ⟨.universal, "b"⟩, ⟨.breakpoint "nowhere", "c"⟩,
      ⟨.breakpoint "gone", "d"⟩]⟩]

/-- The same rules fail with the same error, but only one of the documents leaves a fragment. -/
theorem document_of_mixed :
    ∃ intake intake' : Intake,
      (start .mixed).submitComponents {} splitDocument.assembled = intake ∧
      (start .mixed).submitComponents {} joinedDocument.assembled = intake' ∧
      Registry.mixed.Takes {} splitDocument intake ∧ intake'.outcome = intake.outcome ∧
      intake.outcome = .error (.unknownBreakpoint "nowhere") ∧
      intake.compilation.submitted = 1 ∧ intake'.compilation.submitted = 0 := by
  obtain ⟨intake, -, hintake, htakes, hsame⟩ :=
    document_as_fragments Registry.mixed_reachable {} splitDocument
  obtain ⟨intake', hintake', houtcome, -⟩ := hsame joinedDocument rfl
  refine ⟨intake, intake', hintake, hintake', htakes, houtcome, ?_, ?_, ?_⟩
  · rw [← hintake]
    rfl
  · rw [← hintake]
    rfl
  · rw [← hintake']
    rfl

end MediaSheets
