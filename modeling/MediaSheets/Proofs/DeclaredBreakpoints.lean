import MediaSheets.Proofs.Declarations
import MediaSheets.Proofs.RegistrationOrder
import Mathlib.Data.List.Forall2

/-!
# Declared breakpoints

Declarations can be registered one after another when `Declaration.Sound` holds of them, and
what they declare is registered then. `Declaration.Faulty` says what is wrong with one that
comes after sound ones: fields that do not fit come before anything that hangs on the others.
-/

namespace MediaSheets

open List (Forall₂)

namespace Declaration

/-- Declarations that can be registered in this order. -/
structure Sound (ds : List Declaration) : Prop where
  fits : ∀ d ∈ ds, d.Fits
  names : (ds.map (·.name)).Nodup
  ranks : (ds.map (·.rank)).Nodup
  bases : ∀ (i : Nat) d base, ds[i]? = some d → d.kind = .widthHiDpi → d.pairedWith = some base →
    ∃ other ∈ ds.take i, other.name = base ∧ other.kind = .baseWidth

/-- The first thing that is wrong with a declaration after others. -/
inductive Faulty (earlier : List Declaration) (d : Declaration) : AuthoringError → Prop
  | misfit {reason : String} (hmisfit : d.Misfit reason) :
      Faulty earlier d (.invalidBreakpoint d.name reason)
  | duplicateName {other : Declaration} (hfits : d.Fits) (hother : other ∈ earlier)
      (hname : other.name = d.name) : Faulty earlier d (.duplicateName d.name)
  | duplicateRank {holder : Declaration} (hfits : d.Fits)
      (hname : ∀ other ∈ earlier, other.name ≠ d.name) (hholder : holder ∈ earlier)
      (hrank : holder.rank = d.rank) : Faulty earlier d (.duplicateRank d.rank holder.name)
  | danglingPair {base : String} (hfits : d.Fits)
      (hname : ∀ other ∈ earlier, other.name ≠ d.name)
      (hrank : ∀ other ∈ earlier, other.rank ≠ d.rank) (hpaired : d.pairedWith = some base)
      (hbase : ∀ other ∈ earlier, other.name ≠ base) :
      Faulty earlier d (.danglingPair d.name base)
  | invalidPair {other : Declaration} (hfits : d.Fits)
      (hname : ∀ other ∈ earlier, other.name ≠ d.name)
      (hrank : ∀ other ∈ earlier, other.rank ≠ d.rank) (hpaired : d.pairedWith = some other.name)
      (hother : other ∈ earlier) (hkind : other.kind ≠ .baseWidth) :
      Faulty earlier d (.invalidPair d.name other.name)

end Declaration

/-! ### Declarations and their breakpoints -/

namespace Declaration

variable {ds : List Declaration} {bs : List Breakpoint}

lemma Declares.kind {d : Declaration} {b : Breakpoint} (h : d.Declares b) : b.kind = d.kind :=
  h.condition.kind_eq

lemma Declares.fits {d : Declaration} {b : Breakpoint} (h : d.Declares b) : d.Fits :=
  exists_gives_iff.mp ⟨_, h.condition⟩

lemma exists_declares_iff {d : Declaration} : (∃ b, d.Declares b) ↔ d.Fits := by
  constructor
  · rintro ⟨b, h⟩
    exact h.fits
  · intro h
    obtain ⟨condition, hgives⟩ := exists_gives_iff.mpr h
    exact ⟨⟨d.name, d.rank, condition⟩, rfl, rfl, hgives⟩

/-- Fields that do not fit come before everything else. -/
lemma Faulty.misfit_or_fits {d : Declaration} {error : AuthoringError} (h : d.Faulty ds error) :
    (∃ reason, d.Misfit reason ∧ error = .invalidBreakpoint d.name reason) ∨ d.Fits := by
  cases h with
  | misfit hmisfit => exact .inl ⟨_, hmisfit, rfl⟩
  | duplicateName hfits => exact .inr hfits
  | duplicateRank hfits => exact .inr hfits
  | danglingPair hfits => exact .inr hfits
  | invalidPair hfits => exact .inr hfits

lemma exists_forall₂_declares_iff :
    (∃ bs, Forall₂ Declares ds bs) ↔ ∀ d ∈ ds, d.Fits := by
  induction ds with
  | nil => simp
  | cons d ds ih =>
    rw [List.forall_mem_cons, ← ih, ← exists_declares_iff]
    constructor
    · rintro ⟨_, h⟩
      cases h with
      | cons hd hds => exact ⟨⟨_, hd⟩, ⟨_, hds⟩⟩
    · rintro ⟨⟨b, hd⟩, ⟨bs, hds⟩⟩
      exact ⟨b :: bs, .cons hd hds⟩

/-- Names, ranks and kinds are the same in declarations and breakpoints. -/
lemma exists_mem_iff (h : Forall₂ Declares ds bs) (p : String → Int32 → Kind → Prop) :
    (∃ b ∈ bs, p b.name b.rank b.kind) ↔ ∃ d ∈ ds, p d.name d.rank d.kind := by
  induction h with
  | nil => simp
  | cons hd _ ih =>
    rw [List.exists_mem_cons_iff, List.exists_mem_cons_iff, ih, hd.name, hd.rank, hd.kind]

lemma forall_mem_iff (h : Forall₂ Declares ds bs) (p : String → Int32 → Kind → Prop) :
    (∀ b ∈ bs, p b.name b.rank b.kind) ↔ ∀ d ∈ ds, p d.name d.rank d.kind := by
  have hexists := exists_mem_iff h fun name rank kind => ¬p name rank kind
  simpa using not_congr hexists

lemma map_eq_map {α : Type} (h : Forall₂ Declares ds bs) {f : Breakpoint → α}
    {g : Declaration → α} (hfg : ∀ d b, d.Declares b → f b = g d) : bs.map f = ds.map g := by
  induction h with
  | nil => rfl
  | cons hd _ ih => rw [List.map_cons, List.map_cons, ih, hfg _ _ hd]

lemma exists_getElem? {α β : Type} {R : α → β → Prop} {l : List α} {l' : List β}
    (h : Forall₂ R l l') {i : Nat} {b : β} (hb : l'[i]? = some b) :
    ∃ a, l[i]? = some a ∧ R a b := by
  obtain ⟨hlength, hget⟩ := List.forall₂_iff_get.mp h
  obtain ⟨hi, rfl⟩ := List.getElem?_eq_some_iff.mp hb
  exact ⟨_, List.getElem?_eq_getElem (hlength ▸ hi), hget i _ hi⟩

lemma sound_iff_registrable (h : Forall₂ Declares ds bs) :
    Sound ds ↔ Registry.Registrable bs := by
  have hnames : bs.map (·.name) = ds.map (·.name) := map_eq_map h fun _ _ hd => hd.name
  have hranks : bs.map (·.rank) = ds.map (·.rank) := map_eq_map h fun _ _ hd => hd.rank
  have hearlier : ∀ (i : Nat) base,
      (∃ other ∈ bs.take i, other.name = base ∧ other.kind = .baseWidth) ↔
        ∃ other ∈ ds.take i, other.name = base ∧ other.kind = .baseWidth :=
    fun i base => exists_mem_iff (List.forall₂_take i h) fun name _ kind =>
      name = base ∧ kind = .baseWidth
  constructor
  · intro hsound
    refine ⟨hnames ▸ hsound.names, hranks ▸ hsound.ranks, ?_⟩
    intro i b base hb hcondition
    obtain ⟨d, hd, hdeclares⟩ := exists_getElem? h hb
    have hpaired := hdeclares.condition.eq_pairedHiDpi_iff.mp hcondition
    have hkind : d.kind = .widthHiDpi := by
      rw [← hdeclares.kind, Breakpoint.kind, hcondition, Condition.kind]
    exact (hearlier i base).mpr (hsound.bases i d base hd hkind hpaired)
  · intro hregistrable
    refine ⟨exists_forall₂_declares_iff.mp ⟨bs, h⟩, hnames ▸ hregistrable.names,
      hranks ▸ hregistrable.ranks, ?_⟩
    intro i d base hd _ hpaired
    have hflip : Forall₂ (flip Declares) bs ds := Forall₂.flip h
    obtain ⟨b, hb, hdeclares⟩ := exists_getElem? hflip hd
    have hcondition := hdeclares.condition.eq_pairedHiDpi_iff.mpr hpaired
    exact (hearlier i base).mp (hregistrable.bases i b base hb hcondition)

end Declaration

/-! ### Declarations one after another -/

namespace Registry

open Declaration

variable {ds : List Declaration}

lemma declare_eq_ok_iff {r r' : Registry} {d : Declaration} :
    r.declare d = .ok r' ↔ ∃ b, d.Declares b ∧ r.register b = .ok r' := by
  unfold declare
  rw [bind_eq_ok_iff]
  simp only [toBreakpoint_eq_ok_iff]

lemma declare_eq_error_iff {r : Registry} {d : Declaration} {error : AuthoringError} :
    r.declare d = .error error ↔
      (∃ reason, d.Misfit reason ∧ error = .invalidBreakpoint d.name reason) ∨
        ∃ b, d.Declares b ∧ r.register b = .error error := by
  unfold declare
  rw [bind_eq_error_iff, toBreakpoint_eq_error_iff]
  simp only [toBreakpoint_eq_ok_iff]

lemma foldlM_declare_eq_ok_iff {r r' : Registry} :
    ds.foldlM declare r = .ok r' ↔
      ∃ bs, Forall₂ Declares ds bs ∧ r.registerAll bs = .ok r' := by
  induction ds generalizing r with
  | nil =>
    constructor
    · intro h
      exact ⟨[], .nil, h⟩
    · rintro ⟨bs, hds, h⟩
      rwa [List.forall₂_nil_left_iff.mp hds] at h
  | cons d ds ih =>
    rw [List.foldlM_cons, bind_eq_ok_iff]
    simp only [declare_eq_ok_iff, ih]
    constructor
    · rintro ⟨next, ⟨b, hd, hb⟩, bs, hds, hbs⟩
      refine ⟨b :: bs, .cons hd hds, ?_⟩
      rw [registerAll, List.foldlM_cons, bind_eq_ok_iff]
      exact ⟨next, hb, hbs⟩
    · rintro ⟨bs, hds, h⟩
      cases hds with
      | cons hd hds =>
        rw [registerAll, List.foldlM_cons, bind_eq_ok_iff] at h
        obtain ⟨next, hb, hbs⟩ := h
        exact ⟨next, ⟨_, hd, hb⟩, _, hds, hbs⟩

lemma exists_foldlM_declare_iff {cutoff : Int32} :
    (∃ r, ds.foldlM declare (Registry.empty cutoff) = .ok r) ↔ Sound ds := by
  simp only [foldlM_declare_eq_ok_iff]
  constructor
  · rintro ⟨r, bs, hds, h⟩
    exact (sound_iff_registrable hds).mpr (exists_registerAll_iff.mp ⟨r, h⟩)
  · intro h
    obtain ⟨bs, hds⟩ := exists_forall₂_declares_iff.mpr h.fits
    obtain ⟨r, hr⟩ := exists_registerAll_iff.mpr ((sound_iff_registrable hds).mp h)
    exact ⟨r, bs, hds, hr⟩

section Declared

/-! A registry that holds what the declarations declare. -/

variable {bs : List Breakpoint} {cutoff : Int32} {r : Registry} (hds : Forall₂ Declares ds bs)
  (hbs : (Registry.empty cutoff).registerAll bs = .ok r)

include hds hbs

lemma exists_mem_breakpoints_iff (p : String → Int32 → Kind → Prop) :
    (∃ b ∈ r.breakpoints, p b.name b.rank b.kind) ↔ ∃ d ∈ ds, p d.name d.rank d.kind := by
  rw [← exists_mem_iff hds]
  simp only [mem_breakpoints_of_registerAll hbs]

lemma freeName_iff {name : String} : r.FreeName name ↔ ∀ d ∈ ds, d.name ≠ name := by
  rw [← forall_mem_iff hds fun other _ _ => other ≠ name]
  simp only [FreeName, mem_breakpoints_of_registerAll hbs]

lemma freeRank_iff {rank : Int32} : r.FreeRank rank ↔ ∀ d ∈ ds, d.rank ≠ rank := by
  rw [← forall_mem_iff hds fun _ other _ => other ≠ rank]
  simp only [FreeRank, mem_breakpoints_of_registerAll hbs]

lemma faulty_of_refuses {d : Declaration} {b : Breakpoint} (hd : d.Declares b)
    {error : AuthoringError} (h : r.Refuses b error) : d.Faulty ds error := by
  -- A breakpoint that stands in the way was declared with the same name, rank and kind.
  have hmem := exists_mem_breakpoints_iff hds hbs
  have hfits := hd.fits
  obtain ⟨name, rank, condition⟩ := b
  obtain ⟨rfl, rfl, hgives⟩ := hd
  cases h with
  | @duplicateName other hother hname =>
    obtain ⟨other', hother', hname'⟩ :=
      (hmem fun name _ _ => name = d.name).mp ⟨other, hother, hname⟩
    exact .duplicateName hfits hother' hname'
  | @duplicateRank holder hname hholder hrank =>
    obtain ⟨holder', hholder', hrank', hname'⟩ :=
      (hmem fun name rank _ => rank = d.rank ∧ name = holder.name).mp
        ⟨holder, hholder, hrank, rfl⟩
    rw [← hname']
    exact .duplicateRank hfits ((freeName_iff hds hbs).mp hname) hholder' hrank'
  | danglingPair hname hrank hcondition hbase =>
    have hpaired := hgives.eq_pairedHiDpi_iff.mp hcondition
    exact .danglingPair hfits ((freeName_iff hds hbs).mp hname) ((freeRank_iff hds hbs).mp hrank)
      hpaired ((freeName_iff hds hbs).mp hbase)
  | @invalidPair other hname hrank hcondition hother hkind =>
    have hpaired := hgives.eq_pairedHiDpi_iff.mp hcondition
    obtain ⟨other', hother', hname', hkind'⟩ :=
      (hmem fun name _ kind => name = other.name ∧ kind ≠ .baseWidth).mp
        ⟨other, hother, rfl, hkind⟩
    rw [← hname'] at hpaired ⊢
    exact .invalidPair hfits ((freeName_iff hds hbs).mp hname) ((freeRank_iff hds hbs).mp hrank)
      hpaired hother' hkind'

lemma refuses_of_faulty {d : Declaration} {b : Breakpoint} (hd : d.Declares b)
    {error : AuthoringError} (h : d.Faulty ds error) : r.Refuses b error := by
  have hmem := exists_mem_breakpoints_iff hds hbs
  obtain ⟨name, rank, condition⟩ := b
  obtain ⟨rfl, rfl, hgives⟩ := hd
  cases h with
  | misfit hmisfit => exact absurd hmisfit hgives.not_misfit
  | @duplicateName other _ hother hname =>
    obtain ⟨other', hother', hname'⟩ :=
      (hmem fun name _ _ => name = d.name).mpr ⟨other, hother, hname⟩
    exact .duplicateName hother' hname'
  | @duplicateRank holder _ hname hholder hrank =>
    obtain ⟨holder', hholder', hrank', hname'⟩ :=
      (hmem fun name rank _ => rank = d.rank ∧ name = holder.name).mpr
        ⟨holder, hholder, hrank, rfl⟩
    rw [← hname']
    exact .duplicateRank ((freeName_iff hds hbs).mpr hname) hholder' hrank'
  | danglingPair _ hname hrank hpaired hbase =>
    have hcondition := hgives.eq_pairedHiDpi_iff.mpr hpaired
    exact .danglingPair ((freeName_iff hds hbs).mpr hname) ((freeRank_iff hds hbs).mpr hrank)
      hcondition ((freeName_iff hds hbs).mpr hbase)
  | @invalidPair other _ hname hrank hpaired hother hkind =>
    obtain ⟨other', hother', hname', hkind'⟩ :=
      (hmem fun name _ kind => name = other.name ∧ kind ≠ .baseWidth).mpr
        ⟨other, hother, rfl, hkind⟩
    rw [← hname'] at hpaired ⊢
    have hcondition := hgives.eq_pairedHiDpi_iff.mpr hpaired
    exact .invalidPair ((freeName_iff hds hbs).mpr hname) ((freeRank_iff hds hbs).mpr hrank)
      hcondition hother' hkind'

end Declared

lemma declare_eq_error_iff_faulty {cutoff : Int32} {r : Registry}
    (h : ds.foldlM declare (Registry.empty cutoff) = .ok r) {d : Declaration}
    {error : AuthoringError} :
    r.declare d = .error error ↔ d.Faulty ds error := by
  obtain ⟨bs, hds, hbs⟩ := foldlM_declare_eq_ok_iff.mp h
  have hr := (Reachable.empty cutoff).registerAll hbs
  rw [declare_eq_error_iff]
  simp only [hr.register_eq_error_iff]
  constructor
  · rintro (⟨reason, hmisfit, rfl⟩ | ⟨b, hd, hrefuses⟩)
    · exact .misfit hmisfit
    · exact faulty_of_refuses hds hbs hd hrefuses
  · intro hfaulty
    rcases hfaulty.misfit_or_fits with hmisfit | hfits
    · exact .inl hmisfit
    · obtain ⟨b, hd⟩ := exists_declares_iff.mpr hfits
      exact .inr ⟨b, hd, refuses_of_faulty hds hbs hd hfaulty⟩

/-- What is wrong is the first thing wrong with the first declaration with which anything is. -/
theorem foldlM_declare_eq_error_iff {cutoff : Int32} {error : AuthoringError} :
    ds.foldlM declare (Registry.empty cutoff) = .error error ↔
      ∃ earlier d later, ds = earlier ++ d :: later ∧ Sound earlier ∧ d.Faulty earlier error := by
  rw [foldlM_eq_error_iff]
  constructor
  · rintro ⟨earlier, d, later, next, hds, hearlier, hd⟩
    exact ⟨earlier, d, later, hds, exists_foldlM_declare_iff.mp ⟨next, hearlier⟩,
      (declare_eq_error_iff_faulty hearlier).mp hd⟩
  · rintro ⟨earlier, d, later, hds, hsound, hd⟩
    obtain ⟨next, hearlier⟩ := exists_foldlM_declare_iff.mpr hsound
    exact ⟨earlier, d, later, next, hds, hearlier,
      (declare_eq_error_iff_faulty hearlier).mpr hd⟩

end Registry

end MediaSheets
