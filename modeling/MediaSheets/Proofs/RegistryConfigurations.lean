import MediaSheets.Proofs.AlikeRegistries
import MediaSheets.Proofs.Configurations
import MediaSheets.Proofs.DocumentRoundTrip

/-!
# Registries as configurations

A breakpoint is declared in exactly one way. `Registry.config` lists the breakpoints of a
registry so that each dense variant comes after its base. Written out, read back and built, it
leads to a registry that no lookup tells apart from the first one.
-/

namespace MediaSheets

open List (Forall₂)

/-! ### Declarations of breakpoints -/

/-- The declaration of a breakpoint. -/
def Breakpoint.declaration (b : Breakpoint) : Declaration :=
  match b.condition with
  | .width bound => ⟨b.name, b.rank, .baseWidth, some bound, none⟩
  | .hiDpi => ⟨b.name, b.rank, .hiDpi, none, none⟩
  | .pairedHiDpi base => ⟨b.name, b.rank, .widthHiDpi, none, some base⟩

lemma Declaration.declares_iff {d : Declaration} {b : Breakpoint} :
    d.Declares b ↔ d = b.declaration := by
  obtain ⟨name, rank, kind, width, pairedWith⟩ := d
  obtain ⟨name', rank', condition⟩ := b
  constructor
  · rintro ⟨rfl, rfl, hgives⟩
    cases hgives with
    | width hkind hwidth hbase =>
      obtain ⟨rfl, rfl, rfl⟩ : kind = _ ∧ width = _ ∧ pairedWith = _ := ⟨hkind, hwidth, hbase⟩
      rfl
    | hiDpi hkind hwidth hbase =>
      obtain ⟨rfl, rfl, rfl⟩ : kind = _ ∧ width = _ ∧ pairedWith = _ := ⟨hkind, hwidth, hbase⟩
      rfl
    | pairedHiDpi hkind hwidth hbase =>
      obtain ⟨rfl, rfl, rfl⟩ : kind = _ ∧ width = _ ∧ pairedWith = _ := ⟨hkind, hwidth, hbase⟩
      rfl
  · intro h
    rw [h]
    cases condition with
    | width bound => exact ⟨rfl, rfl, .width rfl rfl rfl⟩
    | hiDpi => exact ⟨rfl, rfl, .hiDpi rfl rfl rfl⟩
    | pairedHiDpi base => exact ⟨rfl, rfl, .pairedHiDpi rfl rfl rfl⟩

/-! ### Bases before their variants -/

/-- A breakpoint that needs no other one. -/
def Breakpoint.standsAlone (b : Breakpoint) : Bool := b.condition.base?.isNone

namespace Registry

/-- The breakpoints of a registry, those first that need no other one. -/
def basesFirst (r : Registry) : List Breakpoint :=
  r.breakpoints.filter (·.standsAlone) ++ r.breakpoints.filter (!·.standsAlone)

def config (r : Registry) : Config where
  cutoff := .atRank r.cutoff
  breakpoints := r.basesFirst.map Breakpoint.declaration

lemma basesFirst_perm (r : Registry) : r.basesFirst.Perm r.breakpoints :=
  List.filter_append_perm _ _

/-- What needs another breakpoint has all that need none in front of it. -/
lemma mem_take_basesFirst {r : Registry} {i : Nat} {b other : Breakpoint}
    (hi : r.basesFirst[i]? = some b) (hb : b.standsAlone = false) (hother : other ∈ r.breakpoints)
    (halone : other.standsAlone = true) : other ∈ r.basesFirst.take i := by
  have hmem : other ∈ r.breakpoints.filter (·.standsAlone) :=
    List.mem_filter.mpr ⟨hother, halone⟩
  have hle : (r.breakpoints.filter (·.standsAlone)).length ≤ i := by
    by_contra hlt
    rw [basesFirst, List.getElem?_append_left (not_le.mp hlt)] at hi
    have hstands := (List.mem_filter.mp (List.mem_of_getElem? hi)).2
    rw [hb] at hstands
    contradiction
  rw [basesFirst, List.take_append, List.take_of_length_le hle]
  exact List.mem_append_left _ hmem

lemma Reachable.registrable_basesFirst {r : Registry} (hr : r.Reachable) :
    Registrable r.basesFirst where
  names := (r.basesFirst_perm.map _).nodup_iff.mpr hr.wellFormed.nodup_names
  ranks := by
    rw [(r.basesFirst_perm.map _).nodup_iff, breakpoints, List.map_map]
    exact hr.wellFormed.nodup_rank
  bases := by
    intro i b base hi hcondition
    have hb := r.basesFirst_perm.mem_iff.mp (List.mem_of_getElem? hi)
    obtain ⟨e, he, rfl⟩ := mem_breakpoints.mp hb
    obtain ⟨-, other, bound, hresolve, hother, -⟩ := hr.width_of_base he hcondition
    obtain ⟨hmem, hname⟩ := hr.wellFormed.resolve_eq_ok_iff.mp hresolve
    refine ⟨other, ?_, hname, ?_⟩
    · apply mem_take_basesFirst hi _ hmem
      · rw [Breakpoint.standsAlone, hother]
        rfl
      · rw [Breakpoint.standsAlone, hcondition]
        rfl
    · rw [Breakpoint.kind, hother]
      rfl

/-- The configuration of a registry leads to one with the same breakpoints. -/
theorem Reachable.exists_build_config {r : Registry} (hr : r.Reachable) :
    ∃ r', r.config.build = .ok r' ∧ r.Alike r' := by
  obtain ⟨r', h⟩ := (@exists_registerAll_iff r.cutoff _).mpr hr.registrable_basesFirst
  have hds : Forall₂ Declaration.Declares (r.basesFirst.map Breakpoint.declaration)
      r.basesFirst := by
    rw [List.forall₂_map_left_iff, List.forall₂_same]
    exact fun b _ => Declaration.declares_iff.mpr rfl
  have hr' : r'.Reachable := (Reachable.empty r.cutoff).registerAll h
  have hperm : r'.breakpoints.Perm r.breakpoints :=
    (breakpoints_perm_of_registerAll h).trans r.basesFirst_perm
  have hbreakpoints := hr.wellFormed.breakpoints_eq_of_perm hr'.wellFormed hperm
  have hcutoff : r'.cutoff = (Registry.empty r.cutoff).cutoff := cutoff_of_registerAll h
  exact ⟨r', Config.build_eq_ok_iff_registerAll.mpr ⟨_, _, hds, .rank _, h⟩,
    hr.alike hr' hcutoff hbreakpoints⟩

end Registry

lemma Config.ofJson_toJson (c : Config) : Config.ofJson c.toJson = .ok c := by
  rw [Config.ofJson, Config.toJson, Config.readsBack.ofText_pretty]
  rfl

/-- Every breakpoint has exactly one declaration, and every registry a configuration. The text
of the configuration leads to a registry with the same lookups. -/
theorem registries_as_configurations :
    (∀ b : Breakpoint, ∃! d : Declaration, d.toBreakpoint = .ok b) ∧
      ∀ (cutoff : Int32) (changes : List Registry.Change), ∃ (c : Config) (r' : Registry),
        (Config.ofJson c.toJson >>= Config.build) = .ok r' ∧
          ((Registry.empty cutoff).after changes).Alike r' := by
  constructor
  · intro b
    simp only [Declaration.toBreakpoint_eq_ok_iff, Declaration.declares_iff]
    exact ⟨b.declaration, rfl, fun d hd => hd⟩
  · intro cutoff changes
    have hr := (Registry.Reachable.empty cutoff).after changes
    obtain ⟨r', hr', halike⟩ := hr.exists_build_config
    refine ⟨((Registry.empty cutoff).after changes).config, r', ?_, halike⟩
    rw [Config.ofJson_toJson]
    exact hr'

/-- The mixed registry has a configuration that leads to its breakpoints, a variant that comes below
its base among them. -/
theorem configuration_of_mixedChanges :
    (∀ d : Declaration, d.toBreakpoint = .ok ⟨"wide2x", 0, .pairedHiDpi "wide"⟩ →
      d = ⟨"wide2x", 0, .widthHiDpi, none, some "wide"⟩) ∧
    ∃ (c : Config) (r' : Registry), (Config.ofJson c.toJson >>= Config.build) = .ok r' ∧
      r'.cutoff = 5 ∧ r'.breakpoints.map (·.name) = ["narrow", "dense", "wide2x", "wide"] ∧
      r'.resolve "wide2x" = .ok ⟨"wide2x", 0, .pairedHiDpi "wide"⟩ ∧
      r'.media "wide2x" = .ok (.widthHiDpi (.atLeast 900)) ∧ r'.contains "dense2x" = false := by
  obtain ⟨hdeclaration, hconfig⟩ := registries_as_configurations
  constructor
  · intro d hd
    exact (hdeclaration _).unique hd rfl
  · obtain ⟨c, r', hbuild, halike⟩ := hconfig 0 Registry.mixedChanges
    rw [Registry.after_mixedChanges] at halike
    refine ⟨c, r', hbuild, halike.cutoff, ?_, halike.resolve "wide2x", halike.media "wide2x",
      halike.contains "dense2x"⟩
    rw [halike.breakpoints]
    rfl

end MediaSheets
