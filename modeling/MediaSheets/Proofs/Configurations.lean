import MediaSheets.Proofs.DeclaredBreakpoints

/-!
# Configurations

A configuration leads to a registry exactly when `Config.Sound` holds of it. The registry is
the one to which its breakpoints are added in the order of the list. `Config.Refuses` says
what is wrong with any other configuration: the first thing that is wrong with the first
declaration with which anything is, and the cutoff only after all declarations.
-/

namespace MediaSheets

open List (Forall₂)

/-- A cutoff among declarations stands for a rank. -/
inductive Cutoff.StandsFor (ds : List Declaration) : Cutoff → Int32 → Prop
  | rank (rank : Int32) : StandsFor ds (.atRank rank) rank
  | breakpoint {d : Declaration} (hd : d ∈ ds) : StandsFor ds (.atBreakpoint d.name) d.rank

namespace Config

/-- Nothing is wrong with a configuration. -/
structure Sound (config : Config) : Prop where
  breakpoints : Declaration.Sound config.breakpoints
  cutoff : ∀ name, config.cutoff = .atBreakpoint name →
    ∃ d ∈ config.breakpoints, d.name = name

/-- The first thing that is wrong with a configuration. -/
inductive Refuses (config : Config) : AuthoringError → Prop
  | declaration {earlier : List Declaration} {d : Declaration} {later : List Declaration}
      {error : AuthoringError} (hbreakpoints : config.breakpoints = earlier ++ d :: later)
      (hearlier : Declaration.Sound earlier) (hd : d.Faulty earlier error) : Refuses config error
  | cutoff {name : String} (hbreakpoints : Declaration.Sound config.breakpoints)
      (hcutoff : config.cutoff = .atBreakpoint name)
      (hname : ∀ d ∈ config.breakpoints, d.name ≠ name) :
      Refuses config (.unknownBreakpoint name)

end Config

/-! ### The cutoff -/

namespace Cutoff

open Declaration

variable {ds : List Declaration} {c : Cutoff}

lemma exists_standsFor_iff :
    (∃ rank, c.StandsFor ds rank) ↔ ∀ name, c = .atBreakpoint name → ∃ d ∈ ds, d.name = name := by
  cases c with
  | atRank rank => simpa using ⟨rank, StandsFor.rank rank⟩
  | atBreakpoint name =>
    constructor
    · rintro ⟨rank, hrank⟩ _ ⟨⟩
      cases hrank with
      | breakpoint hd => exact ⟨_, hd, rfl⟩
    · intro h
      obtain ⟨d, hd, rfl⟩ := h name rfl
      exact ⟨d.rank, .breakpoint hd⟩

variable {start : Int32} {r : Registry} (h : ds.foldlM Registry.declare (.empty start) = .ok r)

include h

lemma resolve_eq_ok_iff {rank : Int32} : c.resolve r = .ok rank ↔ c.StandsFor ds rank := by
  obtain ⟨bs, hds, hbs⟩ := Registry.foldlM_declare_eq_ok_iff.mp h
  have hr := ((Registry.Reachable.empty start).registerAll hbs).wellFormed
  have hmem := Registry.exists_mem_breakpoints_iff hds hbs
  cases c with
  | atRank rank' =>
    constructor
    · intro heq
      obtain rfl := Except.ok.inj heq
      exact .rank _
    · rintro ⟨⟩
      rfl
  | atBreakpoint name =>
    unfold resolve
    simp only [map_eq_ok_iff, hr.resolve_eq_ok_iff]
    constructor
    · rintro ⟨b, ⟨hb, rfl⟩, rfl⟩
      obtain ⟨d, hd, hname, hrank⟩ :=
        (hmem fun name rank _ => name = b.name ∧ rank = b.rank).mp ⟨b, hb, rfl, rfl⟩
      rw [← hname, ← hrank]
      exact .breakpoint hd
    · intro hrank
      cases hrank with
      | @breakpoint d hd =>
        obtain ⟨b, hb, hname, hrank⟩ :=
          (hmem fun name rank _ => name = d.name ∧ rank = d.rank).mpr ⟨d, hd, rfl, rfl⟩
        exact ⟨b, ⟨hb, hname⟩, hrank⟩

lemma resolve_eq_error_iff {error : AuthoringError} :
    c.resolve r = .error error ↔ ∃ name, c = .atBreakpoint name ∧
      (∀ d ∈ ds, d.name ≠ name) ∧ error = .unknownBreakpoint name := by
  obtain ⟨bs, hds, hbs⟩ := Registry.foldlM_declare_eq_ok_iff.mp h
  have hr := ((Registry.Reachable.empty start).registerAll hbs).wellFormed
  cases c with
  | atRank rank => simp [resolve]
  | atBreakpoint name =>
    unfold resolve
    rw [map_eq_error_iff, hr.resolve_eq_error_iff, Registry.freeName_iff hds hbs]
    simp

end Cutoff

namespace Config

open Declaration

variable {config : Config}

lemma build_eq_ok_iff {r : Registry} :
    config.build = .ok r ↔ ∃ next rank,
      config.breakpoints.foldlM Registry.declare (.empty Int32.minValue) = .ok next ∧
        config.cutoff.StandsFor config.breakpoints rank ∧ next.withCutoff rank = r := by
  unfold build
  rw [bind_eq_ok_iff]
  constructor
  · rintro ⟨next, hnext, h⟩
    obtain ⟨rank, hrank, hr⟩ := bind_eq_ok_iff.mp h
    exact ⟨next, rank, hnext, (Cutoff.resolve_eq_ok_iff hnext).mp hrank, Except.ok.inj hr⟩
  · rintro ⟨next, rank, hnext, hrank, rfl⟩
    refine ⟨next, hnext, bind_eq_ok_iff.mpr ⟨rank, ?_, rfl⟩⟩
    exact (Cutoff.resolve_eq_ok_iff hnext).mpr hrank

lemma exists_build_iff : (∃ r, config.build = .ok r) ↔ config.Sound := by
  simp only [build_eq_ok_iff]
  constructor
  · rintro ⟨_, next, rank, hnext, hrank, rfl⟩
    exact ⟨Registry.exists_foldlM_declare_iff.mp ⟨next, hnext⟩,
      Cutoff.exists_standsFor_iff.mp ⟨rank, hrank⟩⟩
  · rintro ⟨hbreakpoints, hcutoff⟩
    obtain ⟨next, hnext⟩ := Registry.exists_foldlM_declare_iff.mpr hbreakpoints
    obtain ⟨rank, hrank⟩ := Cutoff.exists_standsFor_iff.mpr hcutoff
    exact ⟨_, next, rank, hnext, hrank, rfl⟩

/-- Breakpoints can as well be registered with the cutoff known from the start. -/
lemma build_eq_ok_iff_registerAll {r : Registry} :
    config.build = .ok r ↔ ∃ bs rank, Forall₂ Declares config.breakpoints bs ∧
      config.cutoff.StandsFor config.breakpoints rank ∧
        (Registry.empty rank).registerAll bs = .ok r := by
  have hregister : ∀ rank bs, (Registry.empty rank).registerAll bs =
      ((Registry.empty Int32.minValue).registerAll bs).map (·.withCutoff rank) :=
    fun rank => Registry.registerAll_withCutoff (Registry.empty Int32.minValue) rank
  rw [build_eq_ok_iff]
  constructor
  · rintro ⟨next, rank, hnext, hrank, rfl⟩
    obtain ⟨bs, hds, hbs⟩ := Registry.foldlM_declare_eq_ok_iff.mp hnext
    refine ⟨bs, rank, hds, hrank, ?_⟩
    rw [hregister, hbs]
    rfl
  · rintro ⟨bs, rank, hds, hrank, h⟩
    rw [hregister, map_eq_ok_iff] at h
    obtain ⟨next, hbs, rfl⟩ := h
    exact ⟨next, rank, Registry.foldlM_declare_eq_ok_iff.mpr ⟨bs, hds, hbs⟩, hrank, rfl⟩

lemma build_eq_error_iff {error : AuthoringError} :
    config.build = .error error ↔ config.Refuses error := by
  unfold build
  rw [bind_eq_error_iff, Registry.foldlM_declare_eq_error_iff]
  constructor
  · rintro (⟨earlier, d, later, hds, hearlier, hd⟩ | ⟨next, hnext, h⟩)
    · exact .declaration hds hearlier hd
    · rcases bind_eq_error_iff.mp h with hresolve | ⟨rank, -, h⟩
      · obtain ⟨name, hcutoff, hname, rfl⟩ := (Cutoff.resolve_eq_error_iff hnext).mp hresolve
        exact .cutoff (Registry.exists_foldlM_declare_iff.mp ⟨next, hnext⟩) hcutoff hname
      · contradiction
  · intro h
    cases h with
    | declaration hds hearlier hd => exact .inl ⟨_, _, _, hds, hearlier, hd⟩
    | cutoff hbreakpoints hcutoff hname =>
      obtain ⟨next, hnext⟩ := Registry.exists_foldlM_declare_iff.mpr hbreakpoints
      have hresolve := (Cutoff.resolve_eq_error_iff hnext).mpr ⟨_, hcutoff, hname, rfl⟩
      exact .inr ⟨next, hnext, bind_eq_error_iff.mpr (.inl hresolve)⟩

/-- A registry comes of a configuration exactly when nothing is wrong with it, and it is the
one to which the declared breakpoints are added in the order of the list. Otherwise the first
thing that is wrong is named. -/
theorem build_decides (config : Config) :
    ((∃ r, config.build = .ok r) ↔ config.Sound) ∧
      (∀ r, config.build = .ok r ↔ ∃ bs rank, Forall₂ Declares config.breakpoints bs ∧
        config.cutoff.StandsFor config.breakpoints rank ∧
          (Registry.empty rank).registerAll bs = .ok r) ∧
      ∀ error, config.build = .error error ↔ config.Refuses error :=
  ⟨exists_build_iff, fun _ => build_eq_ok_iff_registerAll, fun _ => build_eq_error_iff⟩

/-- The cutoff is that of the last declaration. -/
def mixed : Config where
  cutoff := .atBreakpoint "dense"
  breakpoints := [⟨"wide", 5, .baseWidth, some (.atLeast 900), none⟩,
    ⟨"wide2x", 0, .widthHiDpi, none, some "wide"⟩, ⟨"dense", -3, .hiDpi, none, none⟩]

/-- The second declaration has a field too many, and its name and rank are taken. The third
one names its base too early, and the cutoff names nothing. -/
def muddled : Config where
  cutoff := .atBreakpoint "huge"
  breakpoints := [⟨"wide", 5, .baseWidth, some (.atLeast 900), none⟩,
    ⟨"wide", 5, .hiDpi, some (.atMost 400), none⟩, ⟨"dense2x", 0, .widthHiDpi, none, some "dense"⟩,
    ⟨"dense", -3, .hiDpi, none, none⟩]

/-- Of all that is wrong with the muddled configuration, the field too many comes first, and
a cutoff that names nothing is next when the first declaration stands alone. -/
theorem build_of_muddled :
    mixed.Sound ∧ (∃ r, mixed.build = .ok r ∧ r.cutoff = -3) ∧
      muddled.Refuses (.invalidBreakpoint "wide" "hi-dpi does not take `width`") ∧
      ¬muddled.Refuses (.duplicateName "wide") ∧ ¬muddled.Refuses (.unknownBreakpoint "huge") ∧
      Config.Refuses { muddled with breakpoints := muddled.breakpoints.take 1 }
        (.unknownBreakpoint "huge") := by
  have hdecides := build_decides muddled
  have herror : muddled.build =
      .error (.invalidBreakpoint "wide" "hi-dpi does not take `width`") := rfl
  refine ⟨(build_decides mixed).1.mp ⟨_, rfl⟩, ⟨_, rfl, rfl⟩, (hdecides.2.2 _).mp herror, ?_, ?_,
    ((build_decides _).2.2 _).mp rfl⟩
  · rw [← hdecides.2.2, herror]
    simp
  · rw [← hdecides.2.2, herror]
    simp

end Config

end MediaSheets
