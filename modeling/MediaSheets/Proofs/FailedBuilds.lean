import MediaSheets.Proofs.DocumentRoundTrip
import MediaSheets.Proofs.DocumentSubmission
import MediaSheets.Proofs.SubmissionEffects
import MediaSheets.Proofs.WrittenSheets

/-!
# Builds that fail

`BuildFails` lists what can go wrong with a build before it asks for a stylesheet to be written:
the configuration or the source cannot be read or makes no sense, the registry cannot be built, or
a component is refused, possibly after others were accepted. `Compiles` says that nothing of this
happens. One of the two holds, never both, and a build that fails leaves everything as it was.
-/

namespace MediaSheets.CommandLine

/-- The configuration that a run goes by: the one at the path, or the standard one. -/
inductive Configures (tree : FileTree) : Option String → Config → Prop
  | standard : Configures tree none Config.standard
  | file {path text : String} {config : Config} (hread : tree.readText path = .ok text)
      (hparse : Config.ofJson text = .ok config) : Configures tree (some path) config

/-- The registry that a run loads. -/
def Loads (tree : FileTree) (config : Option String) (r : Registry) : Prop :=
  ∃ declared, Configures tree config declared ∧ declared.build = .ok r

/-- The document that a run finds at the path of its source. -/
def Reads (tree : FileTree) (source : String) (document : SourceDocument) : Prop :=
  ∃ text, tree.readText source = .ok text ∧ SourceDocument.ofJson text = .ok document

/-- A component of a document is refused when those in front of it have been submitted. -/
def Refuses (r : Registry) (document : SourceDocument) : Prop :=
  ∃ before component after log outcomes c log' error,
    document.components = before ++ component :: after ∧
    (Compilation.start r).receiveAll log (before.map .component) = (outcomes, c, log') ∧
    (c.receive log' (.component component)).1 = .error error

/-- A step of a build fails that comes before all writing. -/
inductive BuildFails (tree : FileTree) (config : Option String) (source : String) : Prop
  | configUnread {path : String} {fault : FileFault} (hconfig : config = some path)
      (h : tree.readText path = .error fault)
  | configInvalid {path text : String} {error : AuthoringError} (hconfig : config = some path)
      (hread : tree.readText path = .ok text) (h : Config.ofJson text = .error error)
  | registryUnbuilt {declared : Config} {error : AuthoringError}
      (hconfig : Configures tree config declared) (h : declared.build = .error error)
  | sourceUnread {fault : FileFault} (h : tree.readText source = .error fault)
  | sourceInvalid {text : String} {error : AuthoringError} (hread : tree.readText source = .ok text)
      (h : SourceDocument.ofJson text = .error error)
  | componentRefused {r : Registry} {document : SourceDocument} (hloads : Loads tree config r)
      (hreads : Reads tree source document) (h : Refuses r document)

/-- A build gets as far as a compilation of its document with its registry. -/
structure Compiles (tree : FileTree) (config : Option String) (source : String) (r : Registry)
    (document : SourceDocument) (c : Compilation) : Prop where
  loads : Loads tree config r
  reads : Reads tree source document
  accepted : ∃ log log', (Compilation.start r).submitAll log document.fragments = .ok (c, log')

/-! ### Submission of a document -/

lemma orFail_eq_ok_iff {ε α : Type} {context : String} {message : ε → String} {x : Except ε α}
    {a : α} : orFail context message x = .ok a ↔ x = .ok a := by
  cases x with
  | error error => simp [orFail]
  | ok a' => simp [orFail]

lemma exists_of_orFail_eq_error {ε α : Type} {context : String} {message : ε → String}
    {x : Except ε α} {failure : Failure} (h : orFail context message x = .error failure) :
    ∃ error, x = .error error := by
  cases x with
  | error error => exact ⟨error, rfl⟩
  | ok a => contradiction

/-- A run exits with 0 when its last step came off. -/
lemma exit_ofAttempt_eq_zero_iff {log : WarningLog} {attempt : Attempt String} :
    (Outcome.ofAttempt log attempt).exit = 0 ↔
      attempt = .ok (Outcome.ofAttempt log attempt).stdout := by
  cases attempt with
  | error failure => simp [Outcome.ofAttempt]
  | ok stdout => simp [Outcome.ofAttempt]

lemma exists_refused_of_submitComponents {c : Compilation} {log : WarningLog}
    {components : List Component} {component : Component} {error : AuthoringError}
    (h : (c.submitComponents log components).refused = some (component, error)) :
    ∃ before after outcomes c' log', components = before ++ component :: after ∧
      c.receiveAll log (before.map .component) = (outcomes, c', log') ∧
      (c'.receive log' (.component component)).1 = .error error := by
  induction components generalizing c log with
  | nil => contradiction
  | cons first components ih =>
    rw [Compilation.submitComponents] at h
    have hfirst := Compilation.receive_component c log first
    cases hsubmit : c.submitComponent log first with
    | error refusal =>
      rw [hsubmit] at h hfirst
      obtain ⟨rfl, rfl⟩ := Prod.mk.inj (Option.some.inj h)
      exact ⟨[], components, [], c, log, rfl, rfl, by rw [hfirst]⟩
    | ok state =>
      rw [hsubmit] at h hfirst
      obtain ⟨before, after, outcomes, c', log', rfl, hbefore, hrefused⟩ := ih h
      refine ⟨first :: before, after, .ok () :: outcomes, c', log', rfl, ?_, hrefused⟩
      rw [List.map_cons, Compilation.receiveAll, hfirst]
      simp only [hbefore]

lemma submitAll_of_submitComponents {c : Compilation} {log : WarningLog}
    {components : List Component} (h : (c.submitComponents log components).refused = none) :
    c.submitAll log (components.flatMap Component.fragments) =
      .ok ((c.submitComponents log components).compilation,
        (c.submitComponents log components).log) := by
  have hlook := Compilation.outcome_submitComponents c log components
  rw [Compilation.Intake.outcome, h] at hlook
  obtain ⟨state, hstate⟩ := Compilation.exists_submitAll_of_forM_check hlook.symm log
  rw [Compilation.submitComponents_of_ok hstate, hstate]

/-- A document that is compiled as its fragments is refused in none of its components. -/
lemma not_refuses_of_submitAll {r : Registry} {document : SourceDocument} {log : WarningLog}
    {state : Compilation × WarningLog}
    (h : (Compilation.start r).submitAll log document.fragments = .ok state) :
    ¬Refuses r document := by
  rintro ⟨before, component, after, log₁, outcomes, c, log₂, error, hcomponents, hbefore, hrefused⟩
  have hlook := (Compilation.check_of_submitAll h).1
  rw [SourceDocument.fragments, forM_flatMap, forM_eq_ok_iff] at hlook
  have hhere := hlook component (by simp [hcomponents])
  rw [Compilation.receiveAll_eq] at hbefore
  obtain ⟨-, rfl, -⟩ := hbefore
  have hregistry := ((Compilation.holds_start r).foldl_next (before.map .component)).registry
  rw [Compilation.receive_eq, hregistry] at hrefused
  have haccepted : r.outcomeOf (.component component) = .ok () := hhere
  rw [haccepted] at hrefused
  contradiction

/-- A new compilation takes a document whole, or refuses one of its components. -/
lemma compileDocument_cases {r : Registry} {log log' : WarningLog} {document : SourceDocument}
    {compiled : Attempt Compilation} (h : compileDocument r log document = (compiled, log')) :
    (∃ failure, compiled = .error failure ∧ Refuses r document) ∨
      ∃ c, compiled = .ok c ∧
        ∃ log₁, (Compilation.start r).submitAll log document.fragments = .ok (c, log₁) := by
  rw [compileDocument] at h
  cases hrefused : ((Compilation.start r).submitComponents log document.components).refused with
  | some refusal =>
    rw [hrefused] at h
    obtain ⟨component, error⟩ := refusal
    obtain ⟨rfl, -⟩ := Prod.mk.inj h
    obtain ⟨before, after, outcomes, c, log₁, hcomponents, hbefore, herror⟩ :=
      exists_refused_of_submitComponents hrefused
    exact .inl ⟨_, rfl, before, component, after, log, outcomes, c, log₁, error, hcomponents,
      hbefore, herror⟩
  | none =>
    rw [hrefused] at h
    obtain ⟨rfl, -⟩ := Prod.mk.inj h
    exact .inr ⟨_, rfl, _, submitAll_of_submitComponents hrefused⟩

/-! ### Runs up to the first stylesheet -/

variable {tree tree' : FileTree} {config : Option String} {source : String}

/-- A run knows one configuration. -/
lemma Configures.unique {declared declared' : Config} (h : Configures tree config declared)
    (h' : Configures tree config declared') : declared' = declared := by
  cases h with
  | standard =>
    cases h'
    rfl
  | file hread hparse =>
    cases h' with
    | file hread' hparse' =>
      rw [hread] at hread'
      obtain rfl := Except.ok.inj hread'
      rw [hparse] at hparse'
      exact (Except.ok.inj hparse').symm

lemma Loads.unique {r r' : Registry} (h : Loads tree config r) (h' : Loads tree config r') :
    r' = r := by
  obtain ⟨declared, hdeclared, hbuild⟩ := h
  obtain ⟨declared', hdeclared', hbuild'⟩ := h'
  obtain rfl := hdeclared.unique hdeclared'
  rw [hbuild] at hbuild'
  exact (Except.ok.inj hbuild').symm

lemma Reads.unique {document document' : SourceDocument} (h : Reads tree source document)
    (h' : Reads tree source document') : document' = document := by
  obtain ⟨text, hread, hparse⟩ := h
  obtain ⟨text', hread', hparse'⟩ := h'
  rw [hread] at hread'
  obtain rfl := Except.ok.inj hread'
  rw [hparse] at hparse'
  exact (Except.ok.inj hparse').symm

/-- There is one compilation that a build gets to. -/
lemma Compiles.unique {r r' : Registry} {document document' : SourceDocument}
    {c c' : Compilation} (h : Compiles tree config source r document c)
    (h' : Compiles tree config source r' document' c') :
    r' = r ∧ document' = document ∧ c' = c := by
  obtain ⟨hloads, hreads, log, log₁, hsubmit⟩ := h
  obtain ⟨hloads', hreads', log', log₁', hsubmit'⟩ := h'
  obtain rfl := hloads.unique hloads'
  obtain rfl := hreads.unique hreads'
  -- the log does not matter for what is filed
  have hlook := (Compilation.check_of_submitAll hsubmit).1
  rw [Compilation.submitAll_of_forM_check hlook] at hsubmit hsubmit'
  obtain ⟨rfl, -⟩ := Prod.mk.inj (Except.ok.inj hsubmit)
  obtain ⟨rfl, -⟩ := Prod.mk.inj (Except.ok.inj hsubmit')
  exact ⟨rfl, rfl, rfl⟩

/-- A build does not fail and get to a compilation as well. -/
lemma BuildFails.not_compiles {r : Registry} {document : SourceDocument} {c : Compilation}
    (h : BuildFails tree config source) : ¬Compiles tree config source r document c := by
  rintro ⟨⟨declared, hdeclared, hbuild⟩, ⟨text, hread, hparse⟩, log, log', hsubmit⟩
  cases h with
  | configUnread hconfig hfault =>
    subst hconfig
    cases hdeclared with
    | file hread' => simp [hread'] at hfault
  | configInvalid hconfig hread' herror =>
    subst hconfig
    cases hdeclared with
    | file hread'' hparse' =>
      rw [hread'] at hread''
      obtain rfl := Except.ok.inj hread''
      simp [hparse'] at herror
  | registryUnbuilt hdeclared' herror =>
    obtain rfl := hdeclared.unique hdeclared'
    simp [hbuild] at herror
  | sourceUnread hfault => simp [hread] at hfault
  | sourceInvalid hread' herror =>
    rw [hread] at hread'
    obtain rfl := Except.ok.inj hread'
    simp [hparse] at herror
  | componentRefused hloads hreads hrefuses =>
    obtain rfl := Loads.unique ⟨declared, hdeclared, hbuild⟩ hloads
    obtain rfl := Reads.unique ⟨text, hread, hparse⟩ hreads
    exact not_refuses_of_submitAll hsubmit hrefuses

/-- A run goes on from what its first step leaves. -/
lemma run_bind_eq {α β : Type} {step : StateM FileTree α} {a : α}
    (h : step.run tree = (a, tree')) (rest : α → StateM FileTree β) :
    (step >>= rest).run tree = (rest a).run tree' := by
  rw [StateT.run_bind, h]
  rfl

lemma run_loadRegistry_some (path : String) (tree : FileTree) :
    (loadRegistry (m := StateM FileTree) (some path)).run tree =
      (do
        let text ← orFail s!"failed to read config '{path}'" FileFault.message (tree.readText path)
        buildRegistry (← parseConfig path text), tree) :=
  rfl

/-- The registry of a configuration is built, or a build fails whatever its source is. -/
lemma buildRegistry_cases {declared : Config} (hdeclared : Configures tree config declared) :
    (∃ failure, buildRegistry declared = .error failure ∧
      ∀ source, BuildFails tree config source) ∨
      ∃ r, buildRegistry declared = .ok r ∧ Loads tree config r := by
  cases hbuild : buildRegistry declared with
  | ok r => exact .inr ⟨r, rfl, declared, hdeclared, orFail_eq_ok_iff.mp hbuild⟩
  | error failure =>
    obtain ⟨error, herror⟩ := exists_of_orFail_eq_error hbuild
    exact .inl ⟨failure, rfl, fun source => .registryUnbuilt hdeclared herror⟩

/-- A registry is loaded, or a build fails whatever its source is. No file is touched. -/
lemma loadRegistry_cases {loaded : Attempt Registry}
    (h : (loadRegistry (m := StateM FileTree) config).run tree = (loaded, tree')) :
    tree' = tree ∧ ((∃ failure, loaded = .error failure ∧ ∀ source, BuildFails tree config source) ∨
      ∃ r, loaded = .ok r ∧ Loads tree config r) := by
  cases config with
  | none =>
    obtain ⟨rfl, rfl⟩ := Prod.mk.inj h
    exact ⟨rfl, buildRegistry_cases .standard⟩
  | some path =>
    rw [run_loadRegistry_some] at h
    obtain ⟨rfl, rfl⟩ := Prod.mk.inj h
    refine ⟨rfl, ?_⟩
    cases hread : tree.readText path with
    | error fault => exact .inl ⟨_, rfl, fun source => .configUnread rfl hread⟩
    | ok text =>
      simp only [orFail, parseConfig, bind, Except.bind]
      cases hparse : Config.ofJson text with
      | error error => exact .inl ⟨_, rfl, fun source => .configInvalid rfl hread hparse⟩
      | ok declared => exact buildRegistry_cases (.file hread hparse)

lemma run_compileSource (r : Registry) (log : WarningLog) (source : String) (tree : FileTree) :
    (compileSource (m := StateM FileTree) r log source).run tree =
      (match orFail s!"failed to read source '{source}'" FileFault.message
          (tree.readText source) >>= parseSource source with
      | .error failure => (.error failure, log)
      | .ok document => compileDocument r log document, tree) := by
  have hrun : (compileSource (m := StateM FileTree) r log source).run tree =
      (match orFail s!"failed to read source '{source}'" FileFault.message
          (tree.readText source) >>= parseSource source with
      | .error failure => pure (.error failure, log)
      | .ok document => pure (compileDocument r log document) : StateM FileTree _).run tree := rfl
  rw [hrun]
  split <;> rfl

/-- A source is compiled, or a build fails. No file is touched. -/
lemma compileSource_cases {r : Registry} {log log' : WarningLog} {compiled : Attempt Compilation}
    (hloads : Loads tree config r)
    (h : (compileSource (m := StateM FileTree) r log source).run tree = ((compiled, log'), tree')) :
    tree' = tree ∧ ((∃ failure, compiled = .error failure ∧ BuildFails tree config source) ∨
      ∃ document c, compiled = .ok c ∧ Compiles tree config source r document c) := by
  rw [run_compileSource] at h
  obtain ⟨hcompiled, rfl⟩ := Prod.mk.inj h
  refine ⟨rfl, ?_⟩
  cases hread : tree.readText source with
  | error fault =>
    rw [hread] at hcompiled
    obtain ⟨rfl, rfl⟩ := Prod.mk.inj hcompiled
    exact .inl ⟨_, rfl, .sourceUnread hread⟩
  | ok text =>
    simp only [hread, orFail, parseSource, bind, Except.bind] at hcompiled
    cases hparse : SourceDocument.ofJson text with
    | error error =>
      rw [hparse] at hcompiled
      obtain ⟨rfl, rfl⟩ := Prod.mk.inj hcompiled
      exact .inl ⟨_, rfl, .sourceInvalid hread hparse⟩
    | ok document =>
      rw [hparse] at hcompiled
      have hreads : Reads tree source document := ⟨text, hread, hparse⟩
      obtain ⟨failure, rfl, hrefuses⟩ | ⟨c, rfl, log₁, haccepted⟩ :=
        compileDocument_cases hcompiled
      · exact .inl ⟨failure, rfl, .componentRefused hloads hreads hrefuses⟩
      · exact .inr ⟨document, c, rfl, hloads, hreads, log, log₁, haccepted⟩

/-- A build fails and leaves everything as it was, or all of its source is compiled and what is left
is to write the stylesheets. -/
lemma build_cases {modern legacy : Option String} {quiet : Bool} {outcome : Outcome}
    (h : (Invocation.run (m := StateM FileTree)
      ⟨.build source modern legacy, config, quiet⟩).run tree = (outcome, tree')) :
    (BuildFails tree config source ∧ tree' = tree ∧
      ∃ log failure, outcome = .ofAttempt log (.error failure)) ∨
    ∃ r document c log attempt, Compiles tree config source r document c ∧
      outcome = .ofAttempt log attempt ∧
      (writeSheets (m := StateM FileTree) c modern legacy).run tree = (attempt, tree') := by
  rw [Invocation.run] at h
  cases hload : (loadRegistry (m := StateM FileTree) config).run tree with
  | mk loaded tree₁ =>
  rw [run_bind_eq hload] at h
  obtain ⟨rfl, ⟨failure, rfl, hfails⟩ | ⟨r, rfl, hloads⟩⟩ := loadRegistry_cases hload
  · obtain ⟨rfl, rfl⟩ := Prod.mk.inj h
    exact .inl ⟨hfails source, rfl, _, failure, rfl⟩
  · simp only [Command.run] at h
    cases hcompile : (compileSource (m := StateM FileTree) r { quiet } source).run tree₁ with
    | mk state tree₂ =>
    rw [run_bind_eq hcompile] at h
    obtain ⟨compiled, log⟩ := state
    obtain ⟨rfl, ⟨failure, rfl, hfails⟩ | ⟨document, c, rfl, hcompiles⟩⟩ :=
      compileSource_cases hloads hcompile
    · obtain ⟨rfl, rfl⟩ := Prod.mk.inj h
      exact .inl ⟨hfails, rfl, log, failure, rfl⟩
    · cases hwrite : (writeSheets (m := StateM FileTree) c modern legacy).run tree₂ with
      | mk attempt tree₃ =>
      dsimp only at h
      rw [run_bind_eq hwrite] at h
      obtain ⟨rfl, rfl⟩ := Prod.mk.inj h
      exact .inr ⟨r, document, c, log, attempt, hcompiles, rfl, hwrite⟩

/-! ### Whole runs -/

/-- The paths that a run is asked to write stylesheets to. -/
def Reading.outputs : Reading → List String
  | .run ⟨.build _ modern legacy, _, _⟩ => modern.toList ++ legacy.toList
  | _ => []

/-- A build touches no file but those it is asked for, and none at all if it is asked for none. -/
lemma changes_of_build {modern legacy : Option String} {quiet : Bool} {outcome : Outcome}
    (h : (Invocation.run (m := StateM FileTree)
      ⟨.build source modern legacy, config, quiet⟩).run tree = (outcome, tree')) :
    tree.Becomes tree' (LeadsTo tree.current (modern.toList ++ legacy.toList)) ∧
      (modern.toList ++ legacy.toList = [] → tree' = tree) := by
  obtain ⟨-, rfl, -⟩ | ⟨r, document, c, log, attempt, -, -, hwrite⟩ := build_cases h
  · exact ⟨.refl tree' _, fun _ => rfl⟩
  · refine ⟨(writeSheets_changes hwrite).1, ?_⟩
    intro hnone
    obtain ⟨hmodern, hlegacy⟩ := List.append_eq_nil_iff.mp hnone
    rw [Option.toList_eq_nil_iff] at hmodern hlegacy
    subst hmodern hlegacy
    exact (Prod.mk.inj hwrite).2.symm

lemma eq_of_run_command {r : Registry} {log : WarningLog} {command : Command} {outcome : Outcome}
    (hcommand : ∀ source modern legacy, command ≠ .build source modern legacy)
    (h : (command.run (m := StateM FileTree) r log).run tree = (outcome, tree')) :
    tree' = tree := by
  cases command with
  | build source modern legacy => exact absurd rfl (hcommand source modern legacy)
  | predicates => exact (Prod.mk.inj h).2.symm
  | inspect source mode json =>
    simp only [Command.run] at h
    rw [run_bind_eq (run_compileSource r log source tree)] at h
    exact (Prod.mk.inj h).2.symm

/-- Commands other than `build` touch nothing. -/
lemma eq_of_run_invocation {invocation : Invocation} {outcome : Outcome}
    (hcommand : ∀ source modern legacy, invocation.command ≠ .build source modern legacy)
    (h : (invocation.run (m := StateM FileTree)).run tree = (outcome, tree')) : tree' = tree := by
  rw [Invocation.run] at h
  cases hload : (loadRegistry (m := StateM FileTree) invocation.config).run tree with
  | mk loaded tree₁ =>
  rw [run_bind_eq hload] at h
  obtain ⟨rfl, ⟨failure, rfl, -⟩ | ⟨r, rfl, -⟩⟩ := loadRegistry_cases hload
  · exact (Prod.mk.inj h).2.symm
  · exact eq_of_run_command hcommand h

lemma changes_of_run {args : List String} {outcome : Outcome}
    (h : (run (m := StateM FileTree) args).run tree = (outcome, tree')) :
    tree.Becomes tree' (LeadsTo tree.current (Reading.ofArguments args).outputs) ∧
      ((Reading.ofArguments args).outputs = [] → tree' = tree) := by
  have hsame : ∀ paths : List String, tree' = tree →
      tree.Becomes tree' (LeadsTo tree.current paths) ∧ (paths = [] → tree' = tree) := by
    rintro paths rfl
    exact ⟨.refl tree' _, fun _ => rfl⟩
  rw [run] at h
  cases hreading : Reading.ofArguments args with
  | version =>
    rw [hreading] at h
    exact hsame _ (Prod.mk.inj h).2.symm
  | help =>
    rw [hreading] at h
    exact hsame _ (Prod.mk.inj h).2.symm
  | misuse =>
    rw [hreading] at h
    exact hsame _ (Prod.mk.inj h).2.symm
  | run invocation =>
    rw [hreading] at h
    obtain ⟨command, config, quiet⟩ := invocation
    cases command with
    | build source modern legacy => exact changes_of_build h
    | inspect source mode json => exact hsame _ (eq_of_run_invocation (by simp) h)
    | predicates => exact hsame _ (eq_of_run_invocation (by simp) h)

/-- A build that fails before it writes leaves every file and directory as it was and nothing on
standard output. No run moves to another directory or touches a file but those it is asked to write,
and none but a build with such a file touches anything. -/
theorem failed_build_changes_nothing {args : List String} {tree tree' : FileTree}
    {outcome : Outcome} (h : (run (m := StateM FileTree) args).run tree = (outcome, tree')) :
    (∀ source modern legacy config quiet,
      Reading.ofArguments args = .run ⟨.build source modern legacy, config, quiet⟩ →
      BuildFails tree config source → outcome.exit ≠ 0 ∧ outcome.stdout = "" ∧ tree' = tree) ∧
    tree'.current = tree.current ∧
    (∀ place, ¬LeadsTo tree.current (Reading.ofArguments args).outputs place →
      tree'.content? place = tree.content? place) ∧
    ((Reading.ofArguments args).outputs = [] → tree' = tree) := by
  obtain ⟨hbecomes, hnone⟩ := changes_of_run h
  refine ⟨?_, hbecomes.current, fun place hplace => hbecomes.content?_eq hplace, hnone⟩
  intro source modern legacy config quiet hreading hfails
  rw [run, hreading] at h
  obtain ⟨-, htree, log, failure, rfl⟩ | ⟨r, document, c, log, attempt, hcompiles, -⟩ :=
    build_cases h
  · refine ⟨?_, rfl, htree⟩
    simp [exit_ofAttempt_eq_zero_iff]
  · exact absurd hcompiles hfails.not_compiles

/-- A document whose first component is accepted and whose second is not. -/
def halfDocument : SourceDocument where
  components := [⟨"card", [⟨.universal, "a"⟩]⟩, ⟨"menu", [⟨.breakpoint "gone", "b"⟩]⟩]

/-- A current directory with a source and with the stylesheet of an earlier build. -/
def builtTree (document : SourceDocument) : FileTree where
  current := ["work"]
  nodes place :=
    if place = ["s.json", "work"] then some (.file document.toJson.toUTF8)
    else if place = ["o.css", "work"] then some (.file "old".toUTF8)
    else none

lemma reads_builtTree (document : SourceDocument) :
    Reads (builtTree document) "s.json" document := by
  have hhas : (builtTree document).Has "s.json" document.toJson := ⟨_, rfl, rfl⟩
  refine ⟨document.toJson, hhas.readText, ?_⟩
  rw [SourceDocument.ofJson, SourceDocument.toJson, SourceDocument.readsBack.ofText_compact]
  rfl

theorem failed_build_of_halfDocument :
    ∃ outcome, (run (m := StateM FileTree) ["build", "s.json", "--modern", "o.css"]).run
        (builtTree halfDocument) = (outcome, builtTree halfDocument) ∧
      outcome.exit ≠ 0 ∧ outcome.stdout = "" := by
  cases hrun : (run (m := StateM FileTree) ["build", "s.json", "--modern", "o.css"]).run
    (builtTree halfDocument) with
  | mk outcome tree' =>
  have hfails : BuildFails (builtTree halfDocument) none "s.json" :=
    .componentRefused ⟨_, .standard, rfl⟩ (reads_builtTree halfDocument)
      ⟨[⟨"card", [⟨.universal, "a"⟩]⟩], ⟨"menu", [⟨.breakpoint "gone", "b"⟩]⟩, [], {}, _, _, _,
        .unknownBreakpoint "gone", rfl, rfl, rfl⟩
  obtain ⟨hexit, hstdout, rfl⟩ := (failed_build_changes_nothing hrun).1 "s.json" (some "o.css")
    none none false (by decide) hfails
  exact ⟨outcome, rfl, hexit, hstdout⟩

end MediaSheets.CommandLine
