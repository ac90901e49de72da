import MediaSheets.CommandLine.Program
import MediaSheets.Proofs.FileChanges

/-!
# Written stylesheets

What is left when a compilation's stylesheets are written, one after the other. Each touches its
own file alone, also where it cannot be written; what comes first stays in place unless the path
of what comes second leads to the same place.
-/

namespace MediaSheets.CommandLine

/-! ### Steps that can fail -/

/-- What comes of two steps: the first fails, or the second goes on from what the first leaves. -/
lemma run_bind_cases {α β : Type} {step : ExceptT Failure (StateM FileTree) α}
    {rest : α → ExceptT Failure (StateM FileTree) β} {tree tree' : FileTree} {attempt : Attempt β}
    (h : (step >>= rest).run.run tree = (attempt, tree')) :
    (∃ failure, attempt = .error failure ∧ step.run.run tree = (.error failure, tree')) ∨
      ∃ a tree₁, step.run.run tree = (.ok a, tree₁) ∧
        (rest a).run.run tree₁ = (attempt, tree') := by
  have hrun : (step >>= rest).run.run tree =
      (ExceptT.bindCont rest (step.run.run tree).1).run (step.run.run tree).2 := rfl
  rw [hrun] at h
  cases hstep : step.run.run tree with
  | mk result tree₁ =>
    rw [hstep] at h
    cases result with
    | ok a => exact .inr ⟨a, tree₁, rfl, h⟩
    | error failure =>
      obtain ⟨rfl, rfl⟩ := Prod.mk.inj h
      exact .inl ⟨failure, rfl, rfl⟩

/-- A file operation whose fault is a failure of the program. -/
def operate (operation : StateM FileTree (Except FileFault Unit)) (context : String) :
    ExceptT Failure (StateM FileTree) Unit := do
  let done ← ExceptT.lift operation
  ExceptT.mk (pure (orFail context FileFault.message done))

lemma run_operate (operation : StateM FileTree (Except FileFault Unit)) (context : String)
    (tree : FileTree) :
    (operate operation context).run.run tree =
      (orFail context FileFault.message (operation.run tree).1, (operation.run tree).2) :=
  rfl

lemma run_createDirectories (path : String) (tree : FileTree) :
    (FileSystem.createDirectories (m := StateM FileTree) path).run tree =
      match tree.makeDirectories path with
      | .ok tree' => (.ok (), tree')
      | .error (fault, tree') => (.error fault, tree') :=
  rfl

lemma run_writeText (path text : String) (tree : FileTree) :
    (FileSystem.writeText (m := StateM FileTree) path text).run tree =
      match tree.writeText path text with
      | .ok tree' => (.ok (), tree')
      | .error fault => (.error fault, tree) :=
  rfl

/-! ### One stylesheet -/

/-- A stylesheet is written by two operations, the first of them only where a directory is named. -/
lemma writeSheet_some (path sheet : String) :
    writeSheet (m := StateM FileTree) (some path) sheet = ExceptT.run
      (match parentOf? path with
      | none => operate (FileSystem.writeText path (sheet ++ "\n")) s!"failed to write '{path}'"
      | some directory => do
        operate (FileSystem.createDirectories directory) s!"failed to create '{directory}'"
        operate (FileSystem.writeText path (sheet ++ "\n")) s!"failed to write '{path}'") := by
  simp only [writeSheet]
  cases parentOf? path with
  | none => rfl
  | some directory => rfl

lemma becomes_of_run_createDirectories {path context : String} {tree tree' : FileTree}
    {attempt : Attempt Unit}
    (h : (operate (FileSystem.createDirectories path) context).run.run tree = (attempt, tree'))
    (targets : Location → Prop) : tree.Becomes tree' targets := by
  have hbecomes := tree.becomes_makeDirectories path targets
  rw [run_operate, run_createDirectories] at h
  obtain ⟨-, rfl⟩ := Prod.mk.inj h
  cases hmade : tree.makeDirectories path with
  | ok tree₁ =>
    rw [hmade] at hbecomes
    exact hbecomes
  | error broken =>
    rw [hmade] at hbecomes
    exact hbecomes

/-- Writing touches the file at the path alone, and if it comes off the file has the text. -/
lemma changes_of_run_writeText {path text context : String} {tree tree' : FileTree}
    {attempt : Attempt Unit}
    (h : (operate (FileSystem.writeText path text) context).run.run tree = (attempt, tree')) :
    tree.Becomes tree' (LeadsTo tree.current [path]) ∧ (attempt = .ok () → tree'.Has path text) := by
  rw [run_operate, run_writeText] at h
  cases hwrite : tree.writeText path text with
  | ok tree₁ =>
    rw [hwrite] at h
    obtain ⟨rfl, rfl⟩ := Prod.mk.inj h
    obtain ⟨hhas, hbecomes⟩ := FileTree.writeText_changes hwrite
    exact ⟨hbecomes, fun _ => hhas⟩
  | error fault =>
    rw [hwrite] at h
    obtain ⟨rfl, rfl⟩ := Prod.mk.inj h
    exact ⟨.refl tree _, by simp [orFail]⟩

/-- Writing a stylesheet touches no file but its own, and if it comes off the file has it. -/
lemma writeSheet_changes {path? : Option String} {sheet : String} {tree tree' : FileTree}
    {attempt : Attempt Unit}
    (h : (writeSheet (m := StateM FileTree) path? sheet).run tree = (attempt, tree')) :
    tree.Becomes tree' (LeadsTo tree.current path?.toList) ∧
      (attempt = .ok () → ∀ path, path? = some path → tree'.Has path (sheet ++ "\n")) := by
  cases path? with
  | none =>
    obtain ⟨rfl, rfl⟩ := Prod.mk.inj h
    exact ⟨.refl tree _, by simp⟩
  | some path =>
    simp only [Option.some.injEq, forall_eq']
    rw [writeSheet_some] at h
    cases hparent : parentOf? path with
    | none =>
      rw [hparent] at h
      exact changes_of_run_writeText h
    | some directory =>
      rw [hparent] at h
      obtain ⟨failure, rfl, hmade⟩ | ⟨u, tree₁, hmade, hwrite⟩ := run_bind_cases h
      · exact ⟨becomes_of_run_createDirectories hmade _, by simp⟩
      · obtain ⟨hbecomes, hhas⟩ := changes_of_run_writeText hwrite
        have hmade' := becomes_of_run_createDirectories hmade (LeadsTo tree.current [path])
        rw [hmade'.current] at hbecomes
        exact ⟨hmade'.trans hbecomes, hhas⟩

/-! ### Both stylesheets -/

/-- What is found after both stylesheets of a compilation were asked for and delivered. Where both
paths lead to one place, the stylesheet without conditions is found there. -/
structure Delivers (c : Compilation) (modern legacy : Option String) (stdout : String)
    (tree : FileTree) : Prop where
  modern_has : ∀ path, modern = some path →
    (∀ other, legacy = some other → placeOf? tree.current other ≠ placeOf? tree.current path) →
      tree.Has path (c.modern ++ "\n")
  legacy_has : ∀ path, legacy = some path → tree.Has path (c.legacy ++ "\n")
  shared_has : ∀ path other, modern = some path → legacy = some other →
    placeOf? tree.current other = placeOf? tree.current path → tree.Has path (c.legacy ++ "\n")
  stdout_eq : stdout = if modern = none ∧ legacy = none then c.modern ++ "\n" else ""

lemma LeadsTo.append_left {current place : Location} {paths : List String}
    (h : LeadsTo current paths place) (others : List String) :
    LeadsTo current (paths ++ others) place := by
  obtain ⟨path, hpath, hplace⟩ := h
  exact ⟨path, List.mem_append_left others hpath, hplace⟩

lemma LeadsTo.append_right {current place : Location} {paths : List String}
    (h : LeadsTo current paths place) (others : List String) :
    LeadsTo current (others ++ paths) place := by
  obtain ⟨path, hpath, hplace⟩ := h
  exact ⟨path, List.mem_append_right others hpath, hplace⟩

/-- What writes at some paths and then at others writes at all of them. -/
lemma FileTree.Becomes.then_at {tree tree' tree'' : FileTree} {paths others : List String}
    (h : tree.Becomes tree' (LeadsTo tree.current paths))
    (h' : tree'.Becomes tree'' (LeadsTo tree'.current others)) :
    tree.Becomes tree'' (LeadsTo tree.current (paths ++ others)) := by
  rw [h.current] at h'
  have hfirst := h.mono fun place hplace => hplace.append_left others
  exact hfirst.trans (h'.mono fun place hplace => hplace.append_right paths)

/-- A stylesheet for a second path is written after that for a first one. -/
lemma delivers_of_written {c : Compilation} {modern legacy : Option String} {tree tree' : FileTree}
    (hasked : ¬(modern = none ∧ legacy = none))
    (hmodern : ∀ path, modern = some path → tree.Has path (c.modern ++ "\n"))
    (hbecomes : tree.Becomes tree' (LeadsTo tree.current legacy.toList))
    (hlegacy : ∀ path, legacy = some path → tree'.Has path (c.legacy ++ "\n")) :
    Delivers c modern legacy "" tree' where
  modern_has := by
    intro path hpath hothers
    rw [hbecomes.current] at hothers
    refine (hmodern path hpath).after_others hbecomes ?_
    rintro place hplace ⟨other, hother, hsame⟩
    exact hothers other (Option.mem_toList.mp hother) (hsame.trans hplace.symm)
  legacy_has := hlegacy
  shared_has := by
    intro path other hpath hother hsame
    obtain ⟨place, hlocate, -⟩ := hmodern path hpath
    exact (hlegacy other hother).of_placeOf?_eq (hbecomes.locate hlocate) hsame.symm
  stdout_eq := by rw [if_neg hasked]

/-- Writing the stylesheets that are asked for touches no file but theirs. If it comes off, each is
in its place. -/
theorem writeSheets_changes {c : Compilation} {modern legacy : Option String}
    {tree tree' : FileTree} {attempt : Attempt String}
    (h : (writeSheets (m := StateM FileTree) c modern legacy).run tree = (attempt, tree')) :
    tree.Becomes tree' (LeadsTo tree.current (modern.toList ++ legacy.toList)) ∧
      ∀ stdout, attempt = .ok stdout → Delivers c modern legacy stdout tree' := by
  by_cases hasked : modern = none ∧ legacy = none
  · obtain ⟨rfl, rfl⟩ := hasked
    obtain ⟨rfl, rfl⟩ := Prod.mk.inj h
    refine ⟨.refl tree _, ?_⟩
    intro stdout hstdout
    obtain rfl := Except.ok.inj hstdout
    exact {
      modern_has := by simp
      legacy_has := by simp
      shared_has := by simp
      stdout_eq := rfl }
  · have hpaths : (modern.isNone && legacy.isNone) = false := by
      rw [Bool.eq_false_iff]
      simpa using hasked
    rw [writeSheets, hpaths, if_neg Bool.false_ne_true] at h
    obtain ⟨failure, rfl, hfirst⟩ | ⟨u, tree₁, hfirst, hrest⟩ := run_bind_cases h
    · have hbecomes := (writeSheet_changes hfirst).1
      exact ⟨hbecomes.mono fun place hplace => hplace.append_left _, by simp⟩
    · obtain ⟨hbecomes₁, hmodern⟩ := writeSheet_changes hfirst
      obtain ⟨failure, rfl, hsecond⟩ | ⟨u, tree₂, hsecond, hend⟩ := run_bind_cases hrest
      · have hbecomes₂ := (writeSheet_changes hsecond).1
        exact ⟨hbecomes₁.then_at hbecomes₂, by simp⟩
      · obtain ⟨rfl, rfl⟩ := Prod.mk.inj hend
        obtain ⟨hbecomes₂, hlegacy⟩ := writeSheet_changes hsecond
        refine ⟨hbecomes₁.then_at hbecomes₂, ?_⟩
        intro stdout hstdout
        obtain rfl := Except.ok.inj hstdout
        exact delivers_of_written hasked (hmodern rfl) hbecomes₂ (hlegacy rfl)

end MediaSheets.CommandLine
