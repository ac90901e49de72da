import MediaSheets.Proofs.ReachableRegistry

/-!
# Consistent registries

A registry holds a breakpoint in three places: its rank under its name, its entry at its
rank, and in the entry the condition that was looked up when it was registered.
`Registry.Consistent` says that the three agree. It holds after any changes to an empty
registry, whether or not some of them fail.
-/

namespace MediaSheets
namespace Registry

/-- An entry is what all lookups under its name lead to. -/
structure Shows (r : Registry) (e : Entry) : Prop where
  contains : r.contains e.breakpoint.name = true
  resolve : r.resolve e.breakpoint.name = .ok e.breakpoint
  media : r.media e.breakpoint.name = .ok e.media
  predicate : r.predicate e.breakpoint.name = .ok e.media.predicate

/-- All lookups under a name say that nothing is registered there. -/
structure Lacks (r : Registry) (name : String) : Prop where
  contains : r.contains name = false
  resolve : r.resolve name = .error (.unknownBreakpoint name)
  media : r.media name = .error (.unknownBreakpoint name)
  predicate : r.predicate name = .error (.unknownBreakpoint name)

/-- The parts of a registry agree with each other. -/
structure Consistent (r : Registry) : Prop where
  /-- A name leads to a rank exactly when the entry at the rank has the name. -/
  lookup_ranks : ∀ name rank, r.ranks.lookup name = some rank ↔
    ∃ e, r.findAt? rank = some e ∧ e.breakpoint.name = name ∧ e.breakpoint.rank = rank
  /-- Each entry is found at its own rank, and nowhere else. -/
  own_rank : ∀ rank e, r.findAt? rank = some e ↔ e ∈ r.entries ∧ e.breakpoint.rank = rank
  ascending : r.breakpoints.Pairwise fun b b' => b.rank < b'.rank
  nodup_names : (r.breakpoints.map (·.name)).Nodup
  length_breakpoints : r.breakpoints.length = r.size
  shows_or_lacks : ∀ name, (∃ e ∈ r.entries, e.breakpoint.name = name ∧ r.Shows e) ∨ r.Lacks name
  kind_media : ∀ e ∈ r.entries, e.media.kind = e.breakpoint.kind
  /-- A dense variant has the width that its base has, which is another breakpoint. -/
  width_of_base : ∀ e ∈ r.entries, ∀ base, e.breakpoint.condition = .pairedHiDpi base →
    base ≠ e.breakpoint.name ∧ ∃ b bound, r.resolve base = .ok b ∧
      b.condition = .width bound ∧ r.media base = .ok (.width bound) ∧ e.media = .widthHiDpi bound

/-! ### Changes -/

/-- Registering in place says whether the breakpoint is registered. The registry is then the
one with the breakpoint, or stays as it was. -/
lemma change_register (r : Registry) (b : Breakpoint) :
    r.change (.register b) =
      ((r.register b).map fun _ => (), (r.register b).toOption.getD r) := by
  -- the procedure goes by what it finds in `r`, which it reads first
  change (ite (r.contains b.name = true) (throw _) _ : Procedure) r = _
  rw [register]
  cases r.contains b.name with
  | true => rfl
  | false =>
    cases r.findAt? b.rank with
    | some holder => rfl
    | none =>
      cases r.mediaOf b with
      | error error => rfl
      | ok media => rfl

lemma after_append_singleton (r : Registry) (changes : List Change) (c : Change) :
    r.after (changes ++ [c]) = ((r.after changes).change c).2 := by
  rw [after, List.foldl_append]
  rfl

lemma Reachable.change {r : Registry} (hr : r.Reachable) (c : Change) :
    (r.change c).2.Reachable := by
  cases c with
  | register b =>
    rw [change_register]
    cases h : r.register b with
    | error error => exact hr
    | ok r' => exact hr.register h
  | moveCutoff cutoff => exact hr.withCutoff cutoff

lemma Reachable.after {r : Registry} (hr : r.Reachable) (changes : List Change) :
    (r.after changes).Reachable := by
  induction changes generalizing r with
  | nil => exact hr
  | cons c changes ih => exact ih (hr.change c)

/-- Reachable registries are those that changes lead to, failing ones included. -/
theorem reachable_iff_after {r : Registry} :
    r.Reachable ↔ ∃ cutoff changes, r = (Registry.empty cutoff).after changes := by
  constructor
  · intro hr
    induction hr with
    | empty cutoff => exact ⟨cutoff, [], rfl⟩
    | @register r r' b _ h ih =>
      obtain ⟨cutoff, changes, rfl⟩ := ih
      refine ⟨cutoff, changes ++ [.register b], ?_⟩
      rw [after_append_singleton, change_register, h]
      rfl
    | @withCutoff r cutoff' _ ih =>
      obtain ⟨cutoff, changes, rfl⟩ := ih
      refine ⟨cutoff, changes ++ [.moveCutoff cutoff'], ?_⟩
      rw [after_append_singleton]
      rfl
  · rintro ⟨cutoff, changes, rfl⟩
    exact (Reachable.empty cutoff).after changes

/-! ### Lookups in a well-formed registry -/

namespace WellFormed

variable {r : Registry} (hr : r.WellFormed)
include hr

lemma eq_of_name {e e' : Entry} (he : e ∈ r.entries) (he' : e' ∈ r.entries)
    (h : e.breakpoint.name = e'.breakpoint.name) : e = e' := by
  have hfind : r.find? e'.breakpoint.name = some e := hr.find?_eq_some_iff.mpr ⟨he, h⟩
  have hfind' : r.find? e'.breakpoint.name = some e' := hr.find?_eq_some_iff.mpr ⟨he', rfl⟩
  exact Option.some.inj (hfind.symm.trans hfind')

lemma nodup_names : (r.breakpoints.map (·.name)).Nodup := by
  rw [breakpoints, List.map_map]
  refine List.pairwise_map.mpr (hr.ascending.imp_of_mem ?_)
  intro e e' he he' hlt hname
  rw [hr.eq_of_name he he' hname] at hlt
  exact Int32.lt_irrefl hlt

lemma contains_eq (name : String) : r.contains name = (r.find? name).isSome := by
  rw [Bool.eq_iff_iff, hr.contains_iff, Option.isSome_iff_exists]
  simp only [hr.find?_eq_some_iff]

lemma shows_of_mem {e : Entry} (he : e ∈ r.entries) : r.Shows e where
  contains := hr.contains_iff.mpr ⟨e, he, rfl⟩
  resolve := hr.resolve_of_mem he
  media := hr.media_of_mem he
  predicate := hr.predicate_of_mem he

lemma lacks_of_find? {name : String} (h : r.find? name = none) : r.Lacks name := by
  have hentry : r.entry name = .error (.unknownBreakpoint name) := by rw [entry, h]
  have hmedia : r.media name = .error (.unknownBreakpoint name) := by
    rw [media, hentry]
    rfl
  constructor
  · rw [hr.contains_eq, h]
    rfl
  · rw [resolve, hentry]
    rfl
  · exact hmedia
  · rw [predicate, hmedia]
    rfl

/-- A registration changes nothing under other names. -/
lemma find?_register_of_ne {r' : Registry} {b : Breakpoint} (h : r.register b = .ok r')
    {name : String} (hne : name ≠ b.name) : r'.find? name = r.find? name := by
  have hr' := hr.register h
  obtain ⟨-, hrank, media, -, rfl⟩ := register_eq_ok_iff.mp h
  apply Option.ext
  intro e
  rw [hr'.find?_eq_some_iff, hr.find?_eq_some_iff, mem_entries_add hrank]
  constructor
  · rintro ⟨rfl | he, hname⟩
    · exact absurd hname.symm hne
    · exact ⟨he, hname⟩
  · rintro ⟨he, hname⟩
    exact ⟨.inr he, hname⟩

end WellFormed

/-! ### Conditions that were looked up -/

/-- A dense variant is given the width of its base, if that has one. -/
lemma mediaOf_eq_ok_iff {r : Registry} {b : Breakpoint} {base : String}
    (hb : b.condition = .pairedHiDpi base) {media : Media} :
    r.mediaOf b = .ok media ↔ ∃ e bound, r.find? base = some e ∧ e.media = .width bound ∧
      media = .widthHiDpi bound := by
  simp only [mediaOf, hb]
  cases r.find? base with
  | none => simp
  | some e =>
    cases hmedia : e.media with
    | width bound => simp [hmedia, eq_comm]
    | hiDpi => simp [hmedia]
    | widthHiDpi bound => simp [hmedia]

lemma mediaOf_eq_width_iff {r : Registry} {b : Breakpoint} {bound : WidthBound} :
    r.mediaOf b = .ok (.width bound) ↔ b.condition = .width bound := by
  cases hcondition : b.condition with
  | width bound' => simp [mediaOf, hcondition]
  | hiDpi => simp [mediaOf, hcondition]
  | pairedHiDpi base => simp [mediaOf_eq_ok_iff hcondition]

lemma kind_of_mediaOf {r : Registry} {b : Breakpoint} {media : Media}
    (h : r.mediaOf b = .ok media) : media.kind = b.kind := by
  rw [Breakpoint.kind]
  cases hcondition : b.condition with
  | width bound =>
    rw [mediaOf_eq_width_iff.mpr hcondition] at h
    rw [← Except.ok.inj h]
    rfl
  | hiDpi =>
    simp only [mediaOf, hcondition, Except.ok.injEq] at h
    rw [← h]
    rfl
  | pairedHiDpi base =>
    obtain ⟨e, bound, -, -, rfl⟩ := (mediaOf_eq_ok_iff hcondition).mp h
    rfl

/-- What a condition was looked up as stays so when a breakpoint is registered. -/
lemma WellFormed.mediaOf_register {r r' : Registry} (hr : r.WellFormed) {b : Breakpoint}
    (h : r.register b = .ok r') {b' : Breakpoint} {media : Media}
    (hmedia : r.mediaOf b' = .ok media) : r'.mediaOf b' = .ok media := by
  cases hcondition : b'.condition with
  | width bound =>
    simp only [mediaOf, hcondition] at hmedia ⊢
    exact hmedia
  | hiDpi =>
    simp only [mediaOf, hcondition] at hmedia ⊢
    exact hmedia
  | pairedHiDpi base =>
    obtain ⟨e, bound, hfind, hbound, rfl⟩ := (mediaOf_eq_ok_iff hcondition).mp hmedia
    have hne : base ≠ b.name := by
      rintro rfl
      have hname := (register_eq_ok_iff.mp h).1
      rw [hr.contains_eq, hfind] at hname
      contradiction
    refine (mediaOf_eq_ok_iff hcondition).mpr ⟨e, bound, ?_, hbound, rfl⟩
    rw [hr.find?_register_of_ne h hne, hfind]

/-- The condition in an entry is what a lookup would find now. -/
lemma Reachable.mediaOf_of_mem {r : Registry} (hr : r.Reachable) :
    ∀ e ∈ r.entries, r.mediaOf e.breakpoint = .ok e.media := by
  induction hr with
  | empty cutoff =>
    intro e he
    simp [entries, Registry.empty] at he
  | @register r r' b hr h ih =>
    intro e he
    apply hr.wellFormed.mediaOf_register h
    obtain ⟨-, hrank, media, hmedia, rfl⟩ := register_eq_ok_iff.mp h
    rcases (mem_entries_add hrank).mp he with rfl | he
    · exact hmedia
    · exact ih e he
  | withCutoff cutoff _ ih => exact ih

lemma Reachable.media_of_width {r : Registry} (hr : r.Reachable) {e : Entry} (he : e ∈ r.entries)
    {bound : WidthBound} (hcondition : e.breakpoint.condition = .width bound) :
    e.media = .width bound := by
  have hmedia := hr.mediaOf_of_mem e he
  rw [mediaOf_eq_width_iff.mpr hcondition] at hmedia
  exact (Except.ok.inj hmedia).symm

/-! ### Consistency -/

lemma Reachable.width_of_base {r : Registry} (hr : r.Reachable) {e : Entry} (he : e ∈ r.entries)
    {base : String} (hbase : e.breakpoint.condition = .pairedHiDpi base) :
    base ≠ e.breakpoint.name ∧ ∃ b bound, r.resolve base = .ok b ∧
      b.condition = .width bound ∧ r.media base = .ok (.width bound) ∧
      e.media = .widthHiDpi bound := by
  have hw := hr.wellFormed
  obtain ⟨e', bound, hfind, hbound, hmedia⟩ :=
    (mediaOf_eq_ok_iff hbase).mp (hr.mediaOf_of_mem e he)
  obtain ⟨he', rfl⟩ := hw.find?_eq_some_iff.mp hfind
  have hlookup := hr.mediaOf_of_mem e' he'
  rw [hbound] at hlookup
  have hcondition := mediaOf_eq_width_iff.mp hlookup
  constructor
  · intro hname
    rw [hw.eq_of_name he' he hname, hbase] at hcondition
    contradiction
  · have hfound := hw.media_of_mem he'
    rw [hbound] at hfound
    exact ⟨e'.breakpoint, bound, hw.resolve_of_mem he', hcondition, hfound, hmedia⟩

/-- The width that a dense variant has is that of its base. -/
lemma Reachable.media_of_pair {r : Registry} (hr : r.Reachable) {e e' : Entry} (he : e ∈ r.entries)
    (he' : e' ∈ r.entries) (hpaired : e.breakpoint.condition = .pairedHiDpi e'.breakpoint.name)
    {bound : WidthBound} (hbound : e'.breakpoint.condition = .width bound) :
    e.media = .widthHiDpi bound := by
  obtain ⟨-, base, bound', hresolve, hbound', -, hmedia⟩ := hr.width_of_base he hpaired
  rw [hr.wellFormed.resolve_of_mem he'] at hresolve
  obtain rfl := Except.ok.inj hresolve
  obtain rfl := Condition.width.inj (hbound.symm.trans hbound')
  exact hmedia

lemma Reachable.consistent {r : Registry} (hr : r.Reachable) : r.Consistent where
  lookup_ranks := by
    intro name rank
    rw [hr.wellFormed.lookup_ranks]
    simp only [hr.wellFormed.mem_holders_iff, hr.wellFormed.findAt?_eq_some_iff]
    constructor
    · rintro ⟨e, ⟨he, hrank⟩, hname⟩
      exact ⟨e, ⟨he, hrank⟩, hname, hrank⟩
    · rintro ⟨e, hmem, hname, -⟩
      exact ⟨e, hmem, hname⟩
  own_rank := fun _ _ => hr.wellFormed.findAt?_eq_some_iff
  ascending := List.pairwise_map.mpr hr.wellFormed.ascending
  nodup_names := hr.wellFormed.nodup_names
  length_breakpoints := by rw [breakpoints, List.length_map, r.length_entries]
  shows_or_lacks := by
    intro name
    cases hfind : r.find? name with
    | none => exact .inr (hr.wellFormed.lacks_of_find? hfind)
    | some e =>
      obtain ⟨he, hname⟩ := hr.wellFormed.find?_eq_some_iff.mp hfind
      exact .inl ⟨e, he, hname, hr.wellFormed.shows_of_mem he⟩
  kind_media := fun e he => kind_of_mediaOf (hr.mediaOf_of_mem e he)
  width_of_base := fun _ he _ hbase => hr.width_of_base he hbase

/-- A registry is consistent after any changes, those that fail included. -/
theorem consistent_after (cutoff : Int32) (changes : List Change) :
    ((Registry.empty cutoff).after changes).Consistent :=
  ((Reachable.empty cutoff).after changes).consistent

/-- Changes that lead to the mixed registry. Four of them fail: a variant comes before its base, a name
and a rank are taken, and another variant has a base that is no width. -/
def mixedChanges : List Change :=
  [.register ⟨"wide2x", 0, .pairedHiDpi "wide"⟩, .register ⟨"wide", 5, .width (.atLeast 900)⟩,
    .register ⟨"dense", -3, .hiDpi⟩, .moveCutoff 5, .register ⟨"dense", 7, .hiDpi⟩,
    .register ⟨"low", -3, .width (.atMost 200)⟩,
    .register ⟨"narrow", Int32.minValue, .width (.atMost 400)⟩,
    .register ⟨"dense2x", 1, .pairedHiDpi "dense"⟩, .register ⟨"wide2x", 0, .pairedHiDpi "wide"⟩]

lemma after_mixedChanges : (Registry.empty 0).after mixedChanges = mixed := rfl

/-- A variant that is registered at the second attempt has the width of its base, and one that is
refused is not found. -/
theorem consistent_after_mixedChanges :
    ((Registry.empty 0).after mixedChanges).Consistent ∧
      (Registry.empty 0).after mixedChanges = mixed ∧ mixed.size = 4 ∧
      mixed.Shows ⟨⟨"wide2x", 0, .pairedHiDpi "wide"⟩, .widthHiDpi (.atLeast 900)⟩ ∧
      mixed.Lacks "dense2x" := by
  have hconsistent := consistent_after 0 mixedChanges
  refine ⟨hconsistent, after_mixedChanges, rfl, ?_⟩
  rw [after_mixedChanges] at hconsistent
  have hnamed : ∀ e ∈ mixed.entries, e.breakpoint.name ≠ "dense2x" ∧
      (e.breakpoint.name = "wide2x" → e =
        ⟨⟨"wide2x", 0, .pairedHiDpi "wide"⟩, .widthHiDpi (.atLeast 900)⟩) := by
    decide
  constructor
  · obtain ⟨e, he, hname, hshows⟩ | hlacks := hconsistent.shows_or_lacks "wide2x"
    · rwa [(hnamed e he).2 hname] at hshows
    · exact absurd hlacks.contains (by decide)
  · obtain ⟨e, he, hname, -⟩ | hlacks := hconsistent.shows_or_lacks "dense2x"
    · exact absurd hname (hnamed e he).1
    · exact hlacks

end Registry
end MediaSheets
