import MediaSheets.CommandLine.Program
import MediaSheets.Proofs.InversionHistory
import MediaSheets.Proofs.SubmissionEffects

/-!
# Warnings about inversions

A log keeps one warning for each message, so an inversion is heard of only if no earlier one has
its message. Messages put names between quote marks as they are, and call universal rules
`universal`. Names without a quote mark can be read back, whatever the component is called; only
a breakpoint that is itself called `universal` is then taken for universal rules. Without one,
each inversion has a warning of its own.
-/

namespace MediaSheets

/-- The mark in front of names and behind them. -/
def quoteMark : Char := '\x60'

/-- No name of a breakpoint holds a quote mark. -/
def Registry.NamesUnquoted (r : Registry) : Prop := ∀ b ∈ r.breakpoints, quoteMark ∉ b.name.toList

/-- Two inversions differ in nothing but this: the later rules are universal in one of them, and
for a breakpoint called `universal` in the other. -/
def Inversion.MistakenFor (v w : Inversion) : Prop :=
  v.component = w.component ∧ v.earlier = w.earlier ∧
    (v.later = .universal ∧ w.later = .breakpoint "universal" ∨
      v.later = .breakpoint "universal" ∧ w.later = .universal)

/-! ### Messages -/

/-- A list splits in one way only at the last occurrence of an element. -/
lemma append_cons_inj_of_notMem_right {α : Type} {a : α} {l l' m m' : List α} (hm : a ∉ m)
    (hm' : a ∉ m') (h : l ++ a :: m = l' ++ a :: m') : l = l' ∧ m = m' := by
  rcases List.append_eq_append_iff.mp h with ⟨k, rfl, hk⟩ | ⟨k, rfl, hk⟩
  · cases k with
    | nil => exact ⟨(List.append_nil l).symm, (List.cons.inj hk).2⟩
    | cons b k =>
      rw [(List.cons.inj hk).2] at hm
      exact absurd (by simp) hm
  · cases k with
    | nil => exact ⟨List.append_nil l', (List.cons.inj hk).2.symm⟩
    | cons b k =>
      rw [(List.cons.inj hk).2] at hm'
      exact absurd (by simp) hm'

lemma Target.label_eq_iff {t u : Target} :
    t.label = u.label ↔ t = u ∨ t = .universal ∧ u = .breakpoint "universal" ∨
      t = .breakpoint "universal" ∧ u = .universal := by
  cases t with
  | universal =>
    cases u with
    | universal => simp
    | breakpoint name => simp [label, eq_comm]
  | breakpoint name =>
    cases u with
    | universal => simp [label]
    | breakpoint name' => simp [label]

namespace Inversion

lemma message_eq (v : Inversion) :
    v.message = "component `" ++ v.component ++ "` writes `" ++ v.later.label ++
      "` rules after `" ++ v.earlier.label ++ "` rules, " ++
      ("but `" ++ v.later.label ++ "` is emitted first") :=
  rfl

lemma toList_message (v : Inversion) :
    v.message.toList =
      "component `".toList ++ v.component.toList ++ "` writes `".toList ++ v.later.label.toList ++
        "` rules after ".toList ++ quoteMark :: v.earlier.label.toList ++
        "` rules, but ".toList ++ quoteMark :: v.later.label.toList ++
        "` is emitted first".toList := by
  simp [message_eq, quoteMark]

/-- Labels without a quote mark are read back from the end of a message; what is then left of it
is the component. -/
lemma message_eq_iff {v w : Inversion} (hv : quoteMark ∉ v.earlier.label.toList)
    (hv' : quoteMark ∉ v.later.label.toList) (hw : quoteMark ∉ w.earlier.label.toList)
    (hw' : quoteMark ∉ w.later.label.toList) :
    v.message = w.message ↔ v.component = w.component ∧
      v.earlier.label = w.earlier.label ∧ v.later.label = w.later.label := by
  constructor
  · intro h
    rw [← String.toList_inj, toList_message, toList_message] at h
    obtain ⟨hfront, hlater⟩ :=
      append_cons_inj_of_notMem_right hv' hw' (List.append_cancel_right h)
    obtain ⟨hfront, hearlier⟩ :=
      append_cons_inj_of_notMem_right hv hw (List.append_cancel_right hfront)
    rw [hlater] at hfront
    simp only [List.append_cancel_right_eq, List.append_cancel_left_eq] at hfront
    exact ⟨String.toList_inj.mp hfront, String.toList_inj.mp hearlier, String.toList_inj.mp hlater⟩
  · rintro ⟨hcomponent, hearlier, hlater⟩
    rw [message_eq, hcomponent, hearlier, hlater, message_eq]

-- With quote marks in the names a message has more than one reading.
example : (mk "x" (.breakpoint "y` writes `low` rules after `z") (.breakpoint "low")).message =
    (mk "x` writes `low` rules after `y" (.breakpoint "z") (.breakpoint "low")).message := by
  decide

end Inversion

/-! ### Messages of a registry -/

namespace Registry

lemma NamesUnquoted.notMem_label {r : Registry} (hnames : r.NamesUnquoted) {t : Target}
    (ht : r.Knows t) : quoteMark ∉ t.label.toList := by
  cases t with
  | universal => decide
  | breakpoint name =>
    obtain ⟨b, hb, rfl⟩ := ht
    exact hnames b hb

lemma earlier_ne_universal {r : Registry} {fs : List Fragment} {v : Inversion}
    (hv : v ∈ r.inversions fs) : v.earlier ≠ .universal := by
  obtain ⟨-, -, -, -, -, -, -, -, -, -, -, hlt⟩ := r.exists_pair_of_inversion hv
  intro huniversal
  rw [huniversal] at hlt
  exact not_lt_bot hlt

lemma WellFormed.knows_of_mem_inversions {r : Registry} (hr : r.WellFormed) {fs : List Fragment}
    (hfs : ∀ f ∈ fs, r.check f.target = .ok ()) {v : Inversion} (hv : v ∈ r.inversions fs) :
    r.Knows v.earlier ∧ r.Knows v.later := by
  obtain ⟨i, j, f, g, -, hf, hg, -, -, hearlier, hlater, -⟩ := r.exists_pair_of_inversion hv
  rw [← hearlier, ← hlater]
  exact ⟨hr.check_eq_ok_iff_knows.mp (hfs f (List.mem_of_getElem? hf)),
    hr.check_eq_ok_iff_knows.mp (hfs g (List.mem_of_getElem? hg))⟩

/-- Different inversions have one message only if universal rules are mistaken. -/
lemma WellFormed.message_eq_iff_mistakenFor {r : Registry} (hr : r.WellFormed)
    (hnames : r.NamesUnquoted) {fs : List Fragment} (hfs : ∀ f ∈ fs, r.check f.target = .ok ())
    {v w : Inversion} (hv : v ∈ r.inversions fs) (hw : w ∈ r.inversions fs) (hne : v ≠ w) :
    v.message = w.message ↔ v.MistakenFor w := by
  obtain ⟨hearlier, hlater⟩ := hr.knows_of_mem_inversions hfs hv
  obtain ⟨hearlier', hlater'⟩ := hr.knows_of_mem_inversions hfs hw
  rw [Inversion.message_eq_iff (hnames.notMem_label hearlier) (hnames.notMem_label hlater)
    (hnames.notMem_label hearlier') (hnames.notMem_label hlater'), Target.label_eq_iff,
    Target.label_eq_iff]
  constructor
  · rintro ⟨hcomponent, hsame | huniversal | huniversal, hsame' | hmistaken⟩
    · have heq : v = w := by
        cases v
        cases w
        simp_all only
      exact absurd heq hne
    · exact ⟨hcomponent, hsame, hmistaken⟩
    · exact absurd huniversal.1 (earlier_ne_universal hv)
    · exact absurd huniversal.1 (earlier_ne_universal hv)
    · exact absurd huniversal.2 (earlier_ne_universal hw)
    · exact absurd huniversal.2 (earlier_ne_universal hw)
  · rintro ⟨hcomponent, hsame, hmistaken⟩
    exact ⟨hcomponent, .inl hsame, .inr hmistaken⟩

lemma nodup_inversions (r : Registry) (fs : List Fragment) : (r.inversions fs).Nodup := by
  rw [inversions_eq]
  exact nodup_distinct _

lemma WellFormed.nodup_messages {r : Registry} (hr : r.WellFormed) (hnames : r.NamesUnquoted)
    (huniversal : r.FreeName "universal") {fs : List Fragment}
    (hfs : ∀ f ∈ fs, r.check f.target = .ok ()) :
    ((r.inversions fs).map Inversion.message).Nodup := by
  have hunknown : ∀ v ∈ r.inversions fs, v.later ≠ .breakpoint "universal" := by
    intro v hv hlater
    have hknown := (hr.knows_of_mem_inversions hfs hv).2
    rw [hlater] at hknown
    obtain ⟨b, hb, hname⟩ := hknown
    exact huniversal b hb hname
  rw [List.nodup_map_iff_inj_on (r.nodup_inversions fs)]
  intro v hv w hw hmessage
  by_contra hne
  obtain ⟨-, -, hmistaken | hmistaken⟩ :=
    (hr.message_eq_iff_mistakenFor hnames hfs hv hw hne).mp hmessage
  · exact hunknown w hw hmistaken.2
  · exact hunknown v hv hmistaken.1

end Registry

/-! ### Warnings -/

lemma Inversion.message_of_key {v w : Inversion} (h : v.warning.key = w.warning.key) :
    v.message = w.message := by
  simpa [warning, Warning.key] using h

/-- No warning about an inversion is taken for one about a blank fragment. -/
lemma Inversion.key_warning_ne (v : Inversion) (f : Fragment) :
    v.warning.key ≠ (blankWarning f).key := by
  intro h
  have hchars := congrArg String.toList h
  simp [warning, Warning.key, blankWarning] at hchars

namespace Compilation

lemma Holds.log_eq {c : Compilation} {r : Registry} {log log' : WarningLog} {fs : List Fragment}
    (hc : c.Holds r fs) (h : (start r).submitAll log fs = .ok (c, log')) :
    log' = log.warnAll (blankWarnings fs) := by
  have hcheck : fs.forM (start r).check = .ok () := forM_eq_ok_iff.mpr hc.registered
  rw [submitAll_of_forM_check hcheck] at h
  exact (Prod.mk.inj (Except.ok.inj h)).2.symm

/-- What submissions record is not about inversions. -/
lemma Holds.key_notMem_recorded {c : Compilation} {r : Registry} {log log' : WarningLog}
    {fs : List Fragment} (hc : c.Holds r fs)
    (h : (start r).submitAll log.clear fs = .ok (c, log')) (v : Inversion) :
    v.warning.key ∉ log'.recorded := by
  rw [hc.log_eq h, WarningLog.mem_recorded_warnAll]
  rintro (hkey | ⟨w, hw, hkey⟩)
  · exact List.not_mem_nil hkey
  · obtain ⟨f, -, rfl⟩ := List.mem_map.mp hw
    exact v.key_warning_ne f hkey.symm

end Compilation

open CommandLine (warnInversions)

lemma warnInversions_eq (log : WarningLog) (vs : List Inversion) :
    warnInversions log vs = log.warnAll (vs.map Inversion.warning) := by
  rw [warnInversions, WarningLog.warnAll, List.foldl_map]

/-- After fragments are submitted to a cleared log, the inversions record one warning for each
message. Names without a quote mark leave two inversions one message only where universal rules
are mistaken for a breakpoint's; when no breakpoint can be mistaken for them, each inversion has
a warning of its own, which is shown unless the log is quiet. -/
theorem inversions_warned {r : Registry} (hr : r.Reachable) {c : Compilation}
    {log log' : WarningLog} {fs : List Fragment}
    (h : (Compilation.start r).submitAll log.clear fs = .ok (c, log')) :
    (warnInversions log' c.inversions).recorded =
        log'.recorded ++ distinct (c.inversions.map fun v => v.warning.key) ∧
      (r.NamesUnquoted →
        (∀ v ∈ c.inversions, ∀ w ∈ c.inversions, v ≠ w →
          (v.message = w.message ↔ v.MistakenFor w)) ∧
        (r.FreeName "universal" →
          (c.inversions.map Inversion.message).Nodup ∧
          warnInversions log' c.inversions =
            ⟨log'.recorded ++ c.inversions.map fun v => v.warning.key, log'.quiet,
              log'.shown ++ if log'.quiet then [] else c.inversions.map Inversion.warning⟩)) := by
  have hc := Compilation.holds_of_submitAll h
  have hw := hr.wellFormed
  have hnew := hc.key_notMem_recorded h
  have hkeys : (c.inversions.map Inversion.warning).map Warning.key =
      c.inversions.map fun v => v.warning.key := List.map_map
  rw [warnInversions_eq, hkeys.symm]
  refine ⟨?_, ?_⟩
  · rw [WarningLog.recorded_warnAll, List.filter_eq_self.mpr]
    intro key hkey
    obtain ⟨v, -, rfl⟩ := List.mem_map.mp (hkeys ▸ mem_distinct.mp hkey)
    exact decide_eq_true (hnew v)
  · intro hnames
    rw [Compilation.inversions_of_submitAll h] at hkeys ⊢
    refine ⟨fun v hv w hw' hne => hw.message_eq_iff_mistakenFor hnames hc.registered hv hw' hne, ?_⟩
    intro huniversal
    have hmessages := hw.nodup_messages hnames huniversal hc.registered
    refine ⟨hmessages, ?_⟩
    have hnodup : (((r.inversions fs).map Inversion.warning).map Warning.key).Nodup := by
      rw [hkeys]
      exact List.pairwise_map.mpr ((List.pairwise_map.mp hmessages).imp
        fun hne hkey => hne (Inversion.message_of_key hkey))
    rw [WarningLog.warnAll_eq, WarningLog.newIn_eq_self hnodup, hkeys]
    intro w hw
    obtain ⟨v, -, rfl⟩ := List.mem_map.mp hw
    exact hnew v

/-- Four warnings are recorded, the first of them about a blank fragment. -/
theorem inversions_of_mixedFragments_warned :
    ∃ c log, (Compilation.start .mixed).submitAll ({} : WarningLog).clear mixedFragments =
        .ok (c, log) ∧ Registry.mixed.NamesUnquoted ∧ Registry.mixed.FreeName "universal" ∧
      log.count = 1 ∧ (c.inversions.map Inversion.message).Nodup ∧
      (warnInversions log c.inversions).count = 4 := by
  have hsubmit : (Compilation.start .mixed).submitAll ({} : WarningLog).clear mixedFragments =
      .ok (_, _) := rfl
  have hnames : Registry.mixed.NamesUnquoted := by
    unfold Registry.NamesUnquoted
    decide
  have huniversal : Registry.mixed.FreeName "universal" := by
    unfold Registry.FreeName
    decide
  obtain ⟨-, hlegible⟩ := inversions_warned Registry.mixed_reachable hsubmit
  obtain ⟨hmessages, hwarned⟩ := (hlegible hnames).2 huniversal
  refine ⟨_, _, hsubmit, hnames, huniversal, rfl, hmessages, ?_⟩
  rw [hwarned, Compilation.inversions_of_submitAll hsubmit]
  decide

/-- A breakpoint that is called as messages call universal rules. -/
def Registry.misleading : Registry where
  cutoff := 0
  holders :=
    [(1, ⟨⟨"universal", 1, .width (.atLeast 400)⟩, .width (.atLeast 400)⟩),
      (2, ⟨⟨"wide", 2, .width (.atLeast 900)⟩, .width (.atLeast 900)⟩)]
  ranks := [("wide", 2), ("universal", 1)]

/-- Two different inversions have one message, and the second of them is never heard of. -/
theorem inversions_with_one_warning :
    Registry.misleading.Reachable ∧ ∃ c log,
      (Compilation.start .misleading).submitAll ({} : WarningLog).clear
        [⟨"card", .breakpoint "wide", "a"⟩, ⟨"card", .breakpoint "universal", "b"⟩,
          ⟨"card", .universal, "c"⟩] = .ok (c, log) ∧ log.count = 0 ∧
      c.inversions = [⟨"card", .breakpoint "wide", .breakpoint "universal"⟩,
        ⟨"card", .breakpoint "wide", .universal⟩] ∧
      (Inversion.mk "card" (.breakpoint "wide") (.breakpoint "universal")).message =
        (Inversion.mk "card" (.breakpoint "wide") .universal).message ∧
      (warnInversions log c.inversions).count = 1 := by
  have hregister : (Registry.empty 0).registerAll
      [⟨"universal", 1, .width (.atLeast 400)⟩, ⟨"wide", 2, .width (.atLeast 900)⟩] =
      .ok .misleading := rfl
  have hsubmit : (Compilation.start .misleading).submitAll ({} : WarningLog).clear
      [⟨"card", .breakpoint "wide", "a"⟩, ⟨"card", .breakpoint "universal", "b"⟩,
        ⟨"card", .universal, "c"⟩] = .ok (_, _) := rfl
  refine ⟨(Registry.Reachable.empty 0).registerAll hregister, _, _, hsubmit, rfl, ?_, by decide, ?_⟩
  · rw [Compilation.inversions_of_submitAll hsubmit]
    decide
  · rw [Compilation.inversions_of_submitAll hsubmit]
    decide

end MediaSheets
