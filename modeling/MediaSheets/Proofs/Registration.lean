import MediaSheets.Proofs.RegistryConsistency

/-!
# Registration

When a breakpoint is registered, why it is not, and what the registry is afterwards.
`Registry.Admits` and `Registry.Refuses` say what the registered breakpoints make of a new
one, and registration decides between the two. A refusal changes nothing, and an acceptance
nothing under other names.
-/

namespace MediaSheets
namespace Registry

def FreeName (r : Registry) (name : String) : Prop := ∀ b ∈ r.breakpoints, b.name ≠ name

def FreeRank (r : Registry) (rank : Int32) : Prop := ∀ b ∈ r.breakpoints, b.rank ≠ rank

/-- Nothing is wrong with a new breakpoint. -/
structure Admits (r : Registry) (b : Breakpoint) : Prop where
  name : r.FreeName b.name
  rank : r.FreeRank b.rank
  base : ∀ base, b.condition = .pairedHiDpi base →
    ∃ other ∈ r.breakpoints, other.name = base ∧ other.kind = .baseWidth

/-- The first thing that is wrong with a new breakpoint. -/
inductive Refuses (r : Registry) (b : Breakpoint) : AuthoringError → Prop
  | duplicateName {other : Breakpoint} (hother : other ∈ r.breakpoints)
      (hname : other.name = b.name) : Refuses r b (.duplicateName b.name)
  | duplicateRank {holder : Breakpoint} (hname : r.FreeName b.name)
      (hholder : holder ∈ r.breakpoints) (hrank : holder.rank = b.rank) :
      Refuses r b (.duplicateRank b.rank holder.name)
  | danglingPair {base : String} (hname : r.FreeName b.name) (hrank : r.FreeRank b.rank)
      (hcondition : b.condition = .pairedHiDpi base) (hbase : r.FreeName base) :
      Refuses r b (.danglingPair b.name base)
  | invalidPair {other : Breakpoint} (hname : r.FreeName b.name) (hrank : r.FreeRank b.rank)
      (hcondition : b.condition = .pairedHiDpi other.name) (hother : other ∈ r.breakpoints)
      (hkind : other.kind ≠ .baseWidth) : Refuses r b (.invalidPair b.name other.name)

/-- A registry holds one more breakpoint than another, and is as that one otherwise. -/
structure Gains (r : Registry) (b : Breakpoint) (r' : Registry) : Prop where
  resolve_self : r'.resolve b.name = .ok b
  size : r'.size = r.size + 1
  cutoff : r'.cutoff = r.cutoff
  contains : ∀ name, name ≠ b.name → r'.contains name = r.contains name
  resolve : ∀ name, name ≠ b.name → r'.resolve name = r.resolve name
  media : ∀ name, name ≠ b.name → r'.media name = r.media name
  predicate : ∀ name, name ≠ b.name → r'.predicate name = r.predicate name

/-! ### What is wrong with a breakpoint -/

lemma not_freeName_iff {r : Registry} {name : String} :
    ¬r.FreeName name ↔ ∃ b ∈ r.breakpoints, b.name = name := by
  simp [FreeName]

lemma not_freeRank_iff {r : Registry} {rank : Int32} :
    ¬r.FreeRank rank ↔ ∃ b ∈ r.breakpoints, b.rank = rank := by
  simp [FreeRank]

lemma admits_or_refuses (r : Registry) (b : Breakpoint) :
    r.Admits b ∨ ∃ error, r.Refuses b error := by
  by_cases hname : r.FreeName b.name
  · by_cases hrank : r.FreeRank b.rank
    · by_cases hbase : ∀ base, b.condition = .pairedHiDpi base →
        ∃ other ∈ r.breakpoints, other.name = base ∧ other.kind = .baseWidth
      · exact .inl ⟨hname, hrank, hbase⟩
      · push Not at hbase
        obtain ⟨base, hcondition, hkind⟩ := hbase
        right
        by_cases hfree : r.FreeName base
        · exact ⟨_, .danglingPair hname hrank hcondition hfree⟩
        · obtain ⟨other, hother, rfl⟩ := not_freeName_iff.mp hfree
          exact ⟨_, .invalidPair hname hrank hcondition hother (hkind other hother rfl)⟩
    · obtain ⟨holder, hholder, heq⟩ := not_freeRank_iff.mp hrank
      exact .inr ⟨_, .duplicateRank hname hholder heq⟩
  · obtain ⟨other, hother, heq⟩ := not_freeName_iff.mp hname
    exact .inr ⟨_, .duplicateName hother heq⟩

lemma mem_breakpoints {r : Registry} {b : Breakpoint} :
    b ∈ r.breakpoints ↔ ∃ e ∈ r.entries, e.breakpoint = b :=
  List.mem_map

lemma WellFormed.findAt?_eq_none_iff_freeRank {r : Registry} (hr : r.WellFormed) {rank : Int32} :
    r.findAt? rank = none ↔ r.FreeRank rank := by
  rw [hr.findAt?_eq_none_iff_entries, FreeRank]
  simp [breakpoints]

lemma WellFormed.contains_eq_false_iff {r : Registry} (hr : r.WellFormed) {name : String} :
    r.contains name = false ↔ r.FreeName name := by
  rw [← Bool.not_eq_true, hr.contains_iff, FreeName]
  simp [breakpoints]

lemma WellFormed.find?_eq_none_iff {r : Registry} (hr : r.WellFormed) {name : String} :
    r.find? name = none ↔ r.FreeName name := by
  rw [← hr.contains_eq_false_iff, hr.contains_eq, Option.isSome_eq_false_iff,
    Option.isNone_iff_eq_none]

lemma WellFormed.resolve_eq_ok_iff {r : Registry} (hr : r.WellFormed) {name : String}
    {b : Breakpoint} : r.resolve name = .ok b ↔ b ∈ r.breakpoints ∧ b.name = name := by
  rw [mem_breakpoints]
  constructor
  · intro h
    cases hfind : r.find? name with
    | none =>
      rw [(hr.lacks_of_find? hfind).resolve] at h
      contradiction
    | some e =>
      obtain ⟨he, rfl⟩ := hr.find?_eq_some_iff.mp hfind
      rw [hr.resolve_of_mem he] at h
      obtain rfl := Except.ok.inj h
      exact ⟨⟨e, he, rfl⟩, rfl⟩
  · rintro ⟨⟨e, he, rfl⟩, rfl⟩
    exact hr.resolve_of_mem he

lemma WellFormed.resolve_eq_error_iff {r : Registry} (hr : r.WellFormed) {name : String}
    {error : AuthoringError} :
    r.resolve name = .error error ↔ r.FreeName name ∧ error = .unknownBreakpoint name := by
  rw [← hr.find?_eq_none_iff]
  cases hfind : r.find? name with
  | none => simp [(hr.lacks_of_find? hfind).resolve, eq_comm]
  | some e =>
    have hresolve : r.resolve name = .ok e.breakpoint := by
      obtain ⟨he, rfl⟩ := hr.find?_eq_some_iff.mp hfind
      exact hr.resolve_of_mem he
    simp [hresolve]

/-! ### The decision -/

/-- A base-width breakpoint gives its width to the variants that name it. -/
lemma Reachable.mediaOf_of_kind {r : Registry} (hr : r.Reachable) {b other : Breakpoint}
    (hcondition : b.condition = .pairedHiDpi other.name) (hother : other ∈ r.breakpoints)
    (hkind : other.kind = .baseWidth) : ∃ media, r.mediaOf b = .ok media := by
  obtain ⟨e, he, rfl⟩ := mem_breakpoints.mp hother
  have hmedia := kind_of_mediaOf (hr.mediaOf_of_mem e he)
  rw [hkind] at hmedia
  cases hwidth : e.media with
  | width bound =>
    have hfind := hr.wellFormed.find?_eq_some_iff.mpr ⟨he, rfl⟩
    exact ⟨_, (mediaOf_eq_ok_iff hcondition).mpr ⟨e, bound, hfind, hwidth, rfl⟩⟩
  | hiDpi => simp [hwidth, Media.kind] at hmedia
  | widthHiDpi bound => simp [hwidth, Media.kind] at hmedia

/-- A breakpoint of another kind has no width to give. -/
lemma Reachable.mediaOf_of_kind_ne {r : Registry} (hr : r.Reachable) {b other : Breakpoint}
    (hcondition : b.condition = .pairedHiDpi other.name) (hother : other ∈ r.breakpoints)
    (hkind : other.kind ≠ .baseWidth) :
    r.mediaOf b = .error (.invalidPair b.name other.name) := by
  obtain ⟨e, he, rfl⟩ := mem_breakpoints.mp hother
  have hmedia := kind_of_mediaOf (hr.mediaOf_of_mem e he)
  have hfind : r.find? e.breakpoint.name = some e := hr.wellFormed.find?_eq_some_iff.mpr ⟨he, rfl⟩
  simp only [mediaOf, hcondition, hfind]
  cases hwidth : e.media with
  | width bound =>
    rw [hwidth] at hmedia
    exact absurd hmedia.symm hkind
  | hiDpi => rfl
  | widthHiDpi bound => rfl

lemma Reachable.register_of_admits {r : Registry} (hr : r.Reachable) {b : Breakpoint}
    (h : r.Admits b) : ∃ r', r.register b = .ok r' := by
  have hmedia : ∃ media, r.mediaOf b = .ok media := by
    cases hcondition : b.condition with
    | width bound => exact ⟨_, mediaOf_eq_width_iff.mpr hcondition⟩
    | hiDpi => exact ⟨.hiDpi, by simp only [mediaOf, hcondition]⟩
    | pairedHiDpi base =>
      obtain ⟨other, hother, rfl, hkind⟩ := h.base base hcondition
      exact hr.mediaOf_of_kind hcondition hother hkind
  obtain ⟨media, hmedia⟩ := hmedia
  exact ⟨_, register_eq_ok_iff.mpr ⟨hr.wellFormed.contains_eq_false_iff.mpr h.name,
    hr.wellFormed.findAt?_eq_none_iff_freeRank.mpr h.rank, media, hmedia, rfl⟩⟩

lemma register_of_mediaOf_eq_error {r : Registry} {b : Breakpoint} {error : AuthoringError}
    (hname : r.contains b.name = false) (hrank : r.findAt? b.rank = none)
    (hmedia : r.mediaOf b = .error error) : r.register b = .error error := by
  simp only [register, hname, hrank, hmedia]
  rfl

lemma Reachable.register_of_refuses {r : Registry} (hr : r.Reachable) {b : Breakpoint}
    {error : AuthoringError} (h : r.Refuses b error) : r.register b = .error error := by
  have hw := hr.wellFormed
  cases h with
  | duplicateName hother hname =>
    obtain ⟨e, he, rfl⟩ := mem_breakpoints.mp hother
    rw [Registry.register, if_pos (hw.contains_iff.mpr ⟨e, he, hname⟩)]
  | duplicateRank hname hholder hrank =>
    obtain ⟨e, he, rfl⟩ := mem_breakpoints.mp hholder
    simp only [Registry.register, hw.contains_eq_false_iff.mpr hname,
      hw.findAt?_eq_some_iff.mpr ⟨he, hrank⟩]
    rfl
  | danglingPair hname hrank hcondition hbase =>
    apply register_of_mediaOf_eq_error (hw.contains_eq_false_iff.mpr hname)
      (hw.findAt?_eq_none_iff_freeRank.mpr hrank)
    simp only [mediaOf, hcondition, hw.find?_eq_none_iff.mpr hbase]
  | invalidPair hname hrank hcondition hother hkind =>
    exact register_of_mediaOf_eq_error (hw.contains_eq_false_iff.mpr hname)
      (hw.findAt?_eq_none_iff_freeRank.mpr hrank) (hr.mediaOf_of_kind_ne hcondition hother hkind)

lemma Reachable.exists_register_iff {r : Registry} (hr : r.Reachable) {b : Breakpoint} :
    (∃ r', r.register b = .ok r') ↔ r.Admits b := by
  constructor
  · rintro ⟨r', h⟩
    rcases r.admits_or_refuses b with hadmits | ⟨error, hrefuses⟩
    · exact hadmits
    · rw [hr.register_of_refuses hrefuses] at h
      contradiction
  · exact hr.register_of_admits

lemma Reachable.register_eq_error_iff {r : Registry} (hr : r.Reachable) {b : Breakpoint}
    {error : AuthoringError} : r.register b = .error error ↔ r.Refuses b error := by
  constructor
  · intro h
    rcases r.admits_or_refuses b with hadmits | ⟨error', hrefuses⟩
    · obtain ⟨r', hok⟩ := hr.register_of_admits hadmits
      rw [hok] at h
      contradiction
    · rw [hr.register_of_refuses hrefuses] at h
      obtain rfl := Except.error.inj h
      exact hrefuses
  · exact hr.register_of_refuses

/-! ### The registry afterwards -/

lemma size_add {r : Registry} {new : Entry} (hrank : r.findAt? new.breakpoint.rank = none) :
    (r.add new).size = r.size + 1 :=
  (insertAt_perm (findAt?_eq_none_iff.mp hrank)).length_eq

lemma WellFormed.gains {r r' : Registry} (hr : r.WellFormed) {b : Breakpoint}
    (h : r.register b = .ok r') : r.Gains b r' := by
  have hr' := hr.register h
  have hfind : ∀ name, name ≠ b.name → r'.find? name = r.find? name :=
    fun name hne => hr.find?_register_of_ne h hne
  have hentry : ∀ name, name ≠ b.name → r'.entry name = r.entry name := by
    intro name hne
    rw [entry, hfind name hne, entry]
  have hmedia : ∀ name, name ≠ b.name → r'.media name = r.media name := by
    intro name hne
    rw [Registry.media, hentry name hne, Registry.media]
  obtain ⟨-, hrank, media, -, rfl⟩ := register_eq_ok_iff.mp h
  have hmem : ⟨b, media⟩ ∈ (r.add ⟨b, media⟩).entries := (mem_entries_add hrank).mpr (.inl rfl)
  constructor
  · exact hr'.resolve_of_mem hmem
  · exact size_add hrank
  · rfl
  · intro name hne
    rw [hr'.contains_eq, hfind name hne, hr.contains_eq]
  · intro name hne
    rw [Registry.resolve, hentry name hne, Registry.resolve]
  · exact hmedia
  · intro name hne
    rw [Registry.predicate, hmedia name hne, Registry.predicate]

/-! ### Registration in place -/

lemma change_register_eq_ok_iff {r r' : Registry} {b : Breakpoint} :
    r.change (.register b) = (.ok (), r') ↔ r.register b = .ok r' := by
  rw [change_register]
  cases r.register b with
  | error error => simp [Except.map]
  | ok next => simp [Except.map, Except.toOption]

lemma change_register_eq_error_iff {r r' : Registry} {b : Breakpoint} {error : AuthoringError} :
    r.change (.register b) = (.error error, r') ↔ r.register b = .error error ∧ r' = r := by
  rw [change_register]
  cases r.register b with
  | error error' => simp [Except.map, Except.toOption, eq_comm]
  | ok next => simp [Except.map]

/-- A breakpoint is registered exactly when nothing is wrong with it, so that a dense variant
of itself never is. Otherwise the first thing that is wrong is named, and the registry stays
as it was. What is registered is found under its name, and all else stays. -/
theorem register_decides {r : Registry} (hr : r.Reachable) (b : Breakpoint) :
    ((∃ r', r.change (.register b) = (.ok (), r')) ↔ r.Admits b) ∧
      (b.condition = .pairedHiDpi b.name → ¬r.Admits b) ∧
      (∀ error r', r.change (.register b) = (.error error, r') ↔ r.Refuses b error ∧ r' = r) ∧
      ∀ r', r.change (.register b) = (.ok (), r') → r.Gains b r' := by
  refine ⟨?_, ?_, ?_, ?_⟩
  · simp only [change_register_eq_ok_iff]
    exact hr.exists_register_iff
  · intro hcondition h
    obtain ⟨other, hother, hname, -⟩ := h.base b.name hcondition
    exact h.name other hother hname
  · intro error r'
    rw [change_register_eq_error_iff, hr.register_eq_error_iff]
  · intro r' h
    exact hr.wellFormed.gains (change_register_eq_ok_iff.mp h)

/-- A variant of the narrow breakpoint has everything it needs, and one of the dense
breakpoint has not; a rank that is taken comes first. -/
theorem register_of_mixed :
    (∃ r', mixed.change (.register ⟨"narrow2x", 7, .pairedHiDpi "narrow"⟩) = (.ok (), r') ∧
        r'.resolve "narrow2x" = .ok ⟨"narrow2x", 7, .pairedHiDpi "narrow"⟩) ∧
      mixed.Refuses ⟨"dense2x", 7, .pairedHiDpi "dense"⟩ (.invalidPair "dense2x" "dense") ∧
      mixed.Refuses ⟨"wide3x", 0, .pairedHiDpi "wider"⟩ (.duplicateRank 0 "wide2x") := by
  have hreachable := mixed_reachable
  refine ⟨?_, ?_, ?_⟩
  · have hdecides := register_decides hreachable ⟨"narrow2x", 7, .pairedHiDpi "narrow"⟩
    exact ⟨_, rfl, (hdecides.2.2.2 _ rfl).resolve_self⟩
  · have hdecides := register_decides hreachable ⟨"dense2x", 7, .pairedHiDpi "dense"⟩
    exact ((hdecides.2.2.1 _ _).mp rfl).1
  · have hdecides := register_decides hreachable ⟨"wide3x", 0, .pairedHiDpi "wider"⟩
    exact ((hdecides.2.2.1 _ _).mp rfl).1

end Registry
end MediaSheets
