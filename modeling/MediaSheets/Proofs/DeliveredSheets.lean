import MediaSheets.Proofs.FailedBuilds

/-!
# Delivered stylesheets

A build that succeeds has compiled all of its source, and `Delivers` says where the stylesheets are
found afterwards. The second one is written without a look at where the first one went: two paths
to one place are taken, and the stylesheet with conditions is lost there.
-/

namespace MediaSheets.CommandLine

variable {args : List String} {source : String} {modern legacy config : Option String}
  {quiet : Bool} {tree tree' : FileTree} {outcome : Outcome}

/-- All that is left of a build whose source is compiled is to write the stylesheets. -/
lemma run_of_compiles {r : Registry} {document : SourceDocument} {c : Compilation}
    {attempt : Attempt String}
    (hreading : Reading.ofArguments args = .run ⟨.build source modern legacy, config, quiet⟩)
    (hcompiles : Compiles tree config source r document c)
    (hwrite : (writeSheets (m := StateM FileTree) c modern legacy).run tree = (attempt, tree')) :
    ∃ log, (run (m := StateM FileTree) args).run tree = (.ofAttempt log attempt, tree') := by
  cases hrun : (run (m := StateM FileTree) args).run tree with
  | mk outcome tree₁ =>
  rw [run, hreading] at hrun
  obtain ⟨hfails, -⟩ | ⟨r', document', c', log, attempt', hcompiles', rfl, hwrite'⟩ :=
    build_cases hrun
  · exact absurd hcompiles hfails.not_compiles
  · obtain ⟨rfl, rfl, rfl⟩ := hcompiles.unique hcompiles'
    rw [hwrite] at hwrite'
    obtain ⟨rfl, rfl⟩ := Prod.mk.inj hwrite'
    exact ⟨log, rfl⟩

/-- A build that succeeds delivers the stylesheets of its source, each in the file given for it
unless both were given one file, however the paths to it are written. Where no file is given the
build succeeds as soon as its source is compiled. -/
theorem build_delivers
    (hreading : Reading.ofArguments args = .run ⟨.build source modern legacy, config, quiet⟩)
    (h : (run (m := StateM FileTree) args).run tree = (outcome, tree')) :
    (outcome.exit = 0 → (∃ r document c, Compiles tree config source r document c) ∧
      ∀ r document c, Compiles tree config source r document c →
        Delivers c modern legacy outcome.stdout tree') ∧
    ∀ r document c, Compiles tree config source r document c →
      modern = none → legacy = none → outcome.exit = 0 := by
  have hbuild := h
  rw [run, hreading] at hbuild
  constructor
  · intro hexit
    obtain ⟨-, -, log, failure, rfl⟩ | ⟨r, document, c, log, attempt, hcompiles, rfl, hwrite⟩ :=
      build_cases hbuild
    · have hfailure := exit_ofAttempt_eq_zero_iff.mp hexit
      contradiction
    · refine ⟨⟨r, document, c, hcompiles⟩, ?_⟩
      intro r' document' c' hcompiles'
      obtain ⟨rfl, rfl, rfl⟩ := hcompiles.unique hcompiles'
      exact (writeSheets_changes hwrite).2 _ (exit_ofAttempt_eq_zero_iff.mp hexit)
  · rintro r document c hcompiles rfl rfl
    obtain ⟨log, hrun⟩ := run_of_compiles hreading hcompiles rfl
    rw [h] at hrun
    obtain ⟨rfl, -⟩ := Prod.mk.inj hrun
    rfl

/-- Rules of which old browsers are given the first alone. -/
def wideDocument : SourceDocument where
  components := [⟨"card", [⟨.universal, "a"⟩, ⟨.breakpoint "992up", "b"⟩]⟩]

lemma compiles_wideDocument :
    ∃ r c, Compiles (builtTree wideDocument) none "s.json" r wideDocument c ∧
      c.modern = "a\n\n@media only screen and (min-width: 992px) \x7b\nb\n\x7d" ∧ c.legacy = "a" :=
  ⟨_, _, ⟨⟨_, .standard, rfl⟩, reads_builtTree wideDocument, {}, _, rfl⟩, rfl, rfl⟩

/-- Both stylesheets come into a new directory, or the first one to the terminal. -/
theorem build_of_wideDocument_delivers :
    (∃ outcome tree', (run (m := StateM FileTree)
        ["build", "s.json", "--modern", "out/m.css", "--legacy", "out/l.css"]).run
          (builtTree wideDocument) = (outcome, tree') ∧
      outcome.exit = 0 ∧ outcome.stdout = "" ∧ tree'.Has "out/l.css" "a\n" ∧
      tree'.Has "out/m.css" "a\n\n@media only screen and (min-width: 992px) \x7b\nb\n\x7d\n") ∧
    ∃ outcome tree', (run (m := StateM FileTree) ["build", "s.json"]).run
        (builtTree wideDocument) = (outcome, tree') ∧ outcome.exit = 0 ∧
      outcome.stdout = "a\n\n@media only screen and (min-width: 992px) \x7b\nb\n\x7d\n" := by
  obtain ⟨r, c, hcompiles, hmodern, hlegacy⟩ := compiles_wideDocument
  constructor
  · have hreading : Reading.ofArguments
        ["build", "s.json", "--modern", "out/m.css", "--legacy", "out/l.css"] =
        .run ⟨.build "s.json" (some "out/m.css") (some "out/l.css"), none, false⟩ := by decide
    obtain ⟨tree', hwrite, hcurrent⟩ : ∃ tree', (writeSheets (m := StateM FileTree) c
        (some "out/m.css") (some "out/l.css")).run (builtTree wideDocument) = (.ok "", tree') ∧
          tree'.current = ["work"] := ⟨_, rfl, rfl⟩
    obtain ⟨log, hrun⟩ := run_of_compiles hreading hcompiles hwrite
    have hdelivers := ((build_delivers hreading hrun).1 rfl).2 r wideDocument c hcompiles
    have hlegacyHas := hdelivers.legacy_has "out/l.css" rfl
    have hmodernHas := hdelivers.modern_has "out/m.css" rfl (by rw [hcurrent]; decide)
    rw [hlegacy] at hlegacyHas
    rw [hmodern] at hmodernHas
    exact ⟨_, tree', hrun, rfl, rfl, hlegacyHas, hmodernHas⟩
  · have hreading : Reading.ofArguments ["build", "s.json"] =
        .run ⟨.build "s.json" none none, none, false⟩ := by decide
    cases hrun : (run (m := StateM FileTree) ["build", "s.json"]).run (builtTree wideDocument) with
    | mk outcome tree' =>
    obtain ⟨hdelivers, hexit⟩ := build_delivers hreading hrun
    have hzero := hexit r wideDocument c hcompiles rfl rfl
    have hstdout := ((hdelivers hzero).2 r wideDocument c hcompiles).stdout_eq
    rw [hmodern] at hstdout
    exact ⟨outcome, tree', rfl, hzero, hstdout⟩

/-- A build that is given one file for both stylesheets succeeds without delivering the first. -/
theorem build_into_one_file :
    ∃ r c outcome tree', Compiles (builtTree wideDocument) none "s.json" r wideDocument c ∧
      (run (m := StateM FileTree)
        ["build", "s.json", "--modern", "o.css", "--legacy", "o.css"]).run
          (builtTree wideDocument) = (outcome, tree') ∧
      outcome.exit = 0 ∧ ¬tree'.Has "o.css" (c.modern ++ "\n") := by
  obtain ⟨r, c, hcompiles, hmodern, hlegacy⟩ := compiles_wideDocument
  have hreading : Reading.ofArguments
      ["build", "s.json", "--modern", "o.css", "--legacy", "o.css"] =
      .run ⟨.build "s.json" (some "o.css") (some "o.css"), none, false⟩ := by decide
  obtain ⟨tree', hwrite⟩ : ∃ tree', (writeSheets (m := StateM FileTree) c (some "o.css")
      (some "o.css")).run (builtTree wideDocument) = (.ok "", tree') := ⟨_, rfl⟩
  obtain ⟨log, hrun⟩ := run_of_compiles hreading hcompiles hwrite
  refine ⟨r, c, _, tree', hcompiles, hrun, rfl, ?_⟩
  intro hhas
  have hreplaced := ((writeSheets_changes hwrite).2 "" rfl).legacy_has "o.css" rfl
  have hsame := hhas.unique hreplaced
  rw [hmodern, hlegacy] at hsame
  exact absurd hsame (by decide)

end MediaSheets.CommandLine
