import MediaSheets.Distinct
import MediaSheets.Registry
import Mathlib.Data.List.Nodup

/-!
# Reachable registries

`Registry.Reachable` holds of every registry that registrations and moves of the cutoff
lead to. All of them are well-formed: entries are kept under strictly ascending ranks, which are
their own, and each name is kept with the rank of the one entry that has it. Lookups by name and by
rank are then searches among the entries.
-/

namespace MediaSheets
namespace Registry

/-- What registrations and moves of the cutoff lead to. A breakpoint that is refused
leaves the registry as it was. -/
inductive Reachable : Registry → Prop
  | empty (cutoff : Int32) : Reachable (.empty cutoff)
  | register {r r' : Registry} {b : Breakpoint} (hr : Reachable r)
      (h : r.register b = .ok r') : Reachable r'
  | withCutoff {r : Registry} (cutoff : Int32) (hr : Reachable r) :
      Reachable (r.withCutoff cutoff)

/-- Entries are kept under strictly ascending ranks, each under its own, and names are kept with
the ranks of the entries that have them. -/
structure WellFormed (r : Registry) : Prop where
  keys_ascending : (r.holders.map Prod.fst).Pairwise (· < ·)
  own_rank : ∀ rank e, (rank, e) ∈ r.holders → e.breakpoint.rank = rank
  lookup_ranks : ∀ name rank, r.ranks.lookup name = some rank ↔
    ∃ e, (rank, e) ∈ r.holders ∧ e.breakpoint.name = name

/-! ### What is kept under ranks -/

section Holders

variable {kept : List (Int32 × Entry)} {rank : Int32} {new : Entry}

lemma lookup_eq_none_iff_forall :
    kept.lookup rank = none ↔ ∀ e, (rank, e) ∉ kept := by
  rw [List.lookup_eq_none_iff]
  constructor
  · intro h e he
    simpa using h _ he
  · rintro h ⟨other, e⟩ he
    rw [bne_iff_ne]
    rintro rfl
    exact h e he

lemma mem_of_lookup_eq_some {e : Entry} (h : kept.lookup rank = some e) : (rank, e) ∈ kept := by
  obtain ⟨before, after, rfl, -⟩ := List.lookup_eq_some_iff.mp h
  exact List.mem_append_right before List.mem_cons_self

variable (new) in
/-- Under a free rank, an entry goes in front of the first one that is kept or comes after it. -/
lemma insertAt_cons_cases {other : Int32} {entry : Entry} {rest : List (Int32 × Entry)}
    (hfree : ∀ e, (rank, e) ∉ (other, entry) :: rest) :
    (rank < other ∧
      insertAt rank new ((other, entry) :: rest) = (rank, new) :: (other, entry) :: rest) ∨
    (other < rank ∧
      insertAt rank new ((other, entry) :: rest) = (other, entry) :: insertAt rank new rest) := by
  have hne : rank ≠ other := by
    rintro rfl
    exact hfree entry List.mem_cons_self
  rw [insertAt, if_neg hne]
  by_cases hlt : rank < other
  · exact .inl ⟨hlt, if_pos hlt⟩
  · exact .inr ⟨Int32.lt_of_le_of_ne (Int32.not_lt.mp hlt) hne.symm, if_neg hlt⟩

/-- Under a free rank, an entry joins those that are there. -/
lemma insertAt_perm (hfree : ∀ e, (rank, e) ∉ kept) :
    (insertAt rank new kept).Perm ((rank, new) :: kept) := by
  induction kept with
  | nil => exact .refl _
  | cons head rest ih =>
    have hrest := ih fun e he => hfree e (List.mem_cons_of_mem _ he)
    obtain ⟨-, heq⟩ | ⟨-, heq⟩ := insertAt_cons_cases new hfree
    · rw [heq]
    · rw [heq]
      exact (hrest.cons _).trans (.swap _ _ _)

lemma mem_insertAt (hfree : ∀ e, (rank, e) ∉ kept) {p : Int32 × Entry} :
    p ∈ insertAt rank new kept ↔ p = (rank, new) ∨ p ∈ kept := by
  rw [(insertAt_perm hfree).mem_iff, List.mem_cons]

lemma insertAt_ascending (h : (kept.map Prod.fst).Pairwise (· < ·))
    (hfree : ∀ e, (rank, e) ∉ kept) :
    ((insertAt rank new kept).map Prod.fst).Pairwise (· < ·) := by
  induction kept with
  | nil => exact List.pairwise_singleton _ _
  | cons head rest ih =>
    have hfree' : ∀ e, (rank, e) ∉ rest := fun e he => hfree e (List.mem_cons_of_mem _ he)
    obtain ⟨hhead, hrest⟩ := List.pairwise_cons.mp h
    obtain ⟨hlt, heq⟩ | ⟨hlt, heq⟩ := insertAt_cons_cases new hfree
    · rw [heq]
      refine List.pairwise_cons.mpr ⟨?_, h⟩
      intro rank' hrank'
      rcases List.mem_cons.mp hrank' with rfl | hrank'
      · exact hlt
      · exact Int32.lt_trans hlt (hhead rank' hrank')
    · rw [heq]
      refine List.pairwise_cons.mpr ⟨?_, ih hrest hfree'⟩
      intro rank' hrank'
      obtain ⟨p, hp, rfl⟩ := List.mem_map.mp hrank'
      rcases (mem_insertAt hfree').mp hp with rfl | hp
      · exact hlt
      · exact hhead p.1 (List.mem_map_of_mem hp)

end Holders

lemma length_entries (r : Registry) : r.entries.length = r.size := List.length_map _

/-! ### What a registration does -/

lemma findAt?_eq_none_iff {r : Registry} {rank : Int32} :
    r.findAt? rank = none ↔ ∀ e, (rank, e) ∉ r.holders :=
  lookup_eq_none_iff_forall

/-- A registration adds an entry to those that are there. -/
lemma entries_add_perm {r : Registry} {new : Entry}
    (hrank : r.findAt? new.breakpoint.rank = none) : (r.add new).entries.Perm (new :: r.entries) :=
  (insertAt_perm (findAt?_eq_none_iff.mp hrank)).map _

lemma mem_entries_add {r : Registry} {new e : Entry}
    (hrank : r.findAt? new.breakpoint.rank = none) :
    e ∈ (r.add new).entries ↔ e = new ∨ e ∈ r.entries := by
  rw [(entries_add_perm hrank).mem_iff, List.mem_cons]

/-- A breakpoint is registered exactly when its name and rank are free and its condition
is found; its entry is then added. -/
lemma register_eq_ok_iff {r r' : Registry} {b : Breakpoint} :
    r.register b = .ok r' ↔ r.contains b.name = false ∧ r.findAt? b.rank = none ∧
      ∃ media, r.mediaOf b = .ok media ∧ r' = r.add ⟨b, media⟩ := by
  unfold register
  cases hname : r.contains b.name with
  | true => simp
  | false =>
    cases hrank : r.findAt? b.rank with
    | some holder => simp
    | none =>
      cases hmedia : r.mediaOf b with
      | error e => simp [Except.map]
      | ok media => simp [Except.map, eq_comm]

/-! ### The invariant -/

lemma WellFormed.empty (cutoff : Int32) : (Registry.empty cutoff).WellFormed where
  keys_ascending := List.Pairwise.nil
  own_rank := by simp [Registry.empty]
  lookup_ranks := by simp [Registry.empty]

lemma WellFormed.add {r : Registry} (hr : r.WellFormed) {new : Entry}
    (hname : r.ranks.lookup new.breakpoint.name = none)
    (hrank : r.findAt? new.breakpoint.rank = none) : (r.add new).WellFormed := by
  have hfree := findAt?_eq_none_iff.mp hrank
  refine ⟨insertAt_ascending hr.keys_ascending hfree, ?_, ?_⟩
  · intro rank e he
    rcases (mem_insertAt hfree).mp he with heq | he
    · obtain ⟨rfl, rfl⟩ := Prod.mk.inj heq
      rfl
    · exact hr.own_rank rank e he
  · intro name rank
    simp only [Registry.add, mem_insertAt hfree]
    by_cases h : name = new.breakpoint.name
    · subst h
      rw [List.lookup_cons_self]
      constructor
      · intro heq
        obtain rfl := Option.some.inj heq
        exact ⟨new, .inl rfl, rfl⟩
      · rintro ⟨e, heq | he, hen⟩
        · rw [(Prod.mk.inj heq).1]
        · have hsome := (hr.lookup_ranks _ _).mpr ⟨e, he, hen⟩
          rw [hname] at hsome
          contradiction
    · rw [lookup_cons_of_ne h, hr.lookup_ranks]
      constructor
      · rintro ⟨e, he, hen⟩
        exact ⟨e, .inr he, hen⟩
      · rintro ⟨e, heq | he, hen⟩
        · obtain ⟨-, rfl⟩ := Prod.mk.inj heq
          exact absurd hen.symm h
        · exact ⟨e, he, hen⟩

lemma WellFormed.register {r r' : Registry} {b : Breakpoint} (hr : r.WellFormed)
    (h : r.register b = .ok r') : r'.WellFormed := by
  obtain ⟨hname, hrank, media, -, rfl⟩ := register_eq_ok_iff.mp h
  apply hr.add
  · simpa [contains] using hname
  · exact hrank

/-- Every reachable registry is well-formed. -/
theorem Reachable.wellFormed {r : Registry} (hr : r.Reachable) : r.WellFormed := by
  induction hr with
  | empty cutoff => exact .empty cutoff
  | register _ h ih => exact ih.register h
  | withCutoff cutoff _ ih => exact ⟨ih.keys_ascending, ih.own_rank, ih.lookup_ranks⟩

lemma Reachable.registerAll {r r' : Registry} {bs : List Breakpoint} (hr : r.Reachable)
    (h : r.registerAll bs = .ok r') : r'.Reachable := by
  induction bs generalizing r with
  | nil =>
    obtain rfl := Except.ok.inj h
    exact hr
  | cons b bs ih =>
    have hstep : r.registerAll (b :: bs) =
        (r.register b).bind fun next => next.registerAll bs := rfl
    rw [hstep] at h
    cases hb : r.register b with
    | error e =>
      rw [hb] at h
      contradiction
    | ok next =>
      rw [hb] at h
      exact ih (hr.register hb) h

/-- A registry with breakpoints of all kinds, one of them at the lowest rank. -/
def mixed : Registry where
  cutoff := 5
  holders :=
    [(Int32.minValue, ⟨⟨"narrow", Int32.minValue, .width (.atMost 400)⟩, .width (.atMost 400)⟩),
      (-3, ⟨⟨"dense", -3, .hiDpi⟩, .hiDpi⟩),
      (0, ⟨⟨"wide2x", 0, .pairedHiDpi "wide"⟩, .widthHiDpi (.atLeast 900)⟩),
      (5, ⟨⟨"wide", 5, .width (.atLeast 900)⟩, .width (.atLeast 900)⟩)]
  ranks := [("wide2x", 0), ("narrow", Int32.minValue), ("dense", -3), ("wide", 5)]

lemma mixed_reachable : mixed.Reachable := by
  have h : (Registry.empty 5).registerAll
      [⟨"wide", 5, .width (.atLeast 900)⟩, ⟨"dense", -3, .hiDpi⟩,
        ⟨"narrow", Int32.minValue, .width (.atMost 400)⟩, ⟨"wide2x", 0, .pairedHiDpi "wide"⟩] =
      .ok mixed := rfl
  exact (Reachable.empty 5).registerAll h

/-! ### Lookups -/

namespace WellFormed

variable {r : Registry} (hr : r.WellFormed)
include hr

/-- The ranks that entries are kept under are those of their breakpoints. -/
lemma map_rank_entries : r.entries.map (·.breakpoint.rank) = r.holders.map Prod.fst := by
  rw [entries, List.map_map]
  exact List.map_congr_left fun p hp => hr.own_rank p.1 p.2 hp

lemma mem_holders_iff {rank : Int32} {e : Entry} :
    (rank, e) ∈ r.holders ↔ e ∈ r.entries ∧ e.breakpoint.rank = rank := by
  constructor
  · intro h
    exact ⟨List.mem_map_of_mem h, hr.own_rank rank e h⟩
  · rintro ⟨he, rfl⟩
    obtain ⟨⟨rank, e⟩, hp, rfl⟩ := List.mem_map.mp he
    rwa [hr.own_rank rank e hp]

lemma ascending : r.entries.Pairwise fun e e' => e.breakpoint.rank < e'.breakpoint.rank := by
  rw [← List.pairwise_map, hr.map_rank_entries]
  exact hr.keys_ascending

lemma nodup_rank : (r.entries.map (·.breakpoint.rank)).Nodup :=
  List.pairwise_map.mpr (hr.ascending.imp fun hlt => Int32.ne_of_lt hlt)

lemma eq_of_rank {e e' : Entry} (he : e ∈ r.entries) (he' : e' ∈ r.entries)
    (h : e.breakpoint.rank = e'.breakpoint.rank) : e = e' :=
  List.inj_on_of_nodup_map hr.nodup_rank he he' h

lemma findAt?_eq_some_iff {rank : Int32} {e : Entry} :
    r.findAt? rank = some e ↔ e ∈ r.entries ∧ e.breakpoint.rank = rank := by
  rw [← hr.mem_holders_iff]
  constructor
  · exact mem_of_lookup_eq_some
  · intro he
    cases h : r.findAt? rank with
    | none => exact absurd he (findAt?_eq_none_iff.mp h e)
    | some e' =>
      obtain ⟨hmem, hrank⟩ := hr.mem_holders_iff.mp he
      obtain ⟨hmem', hrank'⟩ := hr.mem_holders_iff.mp (mem_of_lookup_eq_some h)
      rw [hr.eq_of_rank hmem' hmem (hrank'.trans hrank.symm)]

lemma findAt?_eq_none_iff_entries {rank : Int32} :
    r.findAt? rank = none ↔ ∀ e ∈ r.entries, e.breakpoint.rank ≠ rank := by
  rw [findAt?_eq_none_iff]
  simp only [hr.mem_holders_iff, not_and]

/-- An entry is found under a name exactly when it is among the entries and has the name. -/
lemma find?_eq_some_iff {name : String} {e : Entry} :
    r.find? name = some e ↔ e ∈ r.entries ∧ e.breakpoint.name = name := by
  simp only [find?, Option.bind_eq_some_iff, hr.lookup_ranks, hr.mem_holders_iff,
    hr.findAt?_eq_some_iff]
  constructor
  · rintro ⟨rank, ⟨e', ⟨he', hrank⟩, hname⟩, he, rfl⟩
    rw [hr.eq_of_rank he' he hrank] at hname
    exact ⟨he, hname⟩
  · rintro ⟨he, hname⟩
    exact ⟨e.breakpoint.rank, ⟨e, ⟨he, rfl⟩, hname⟩, he, rfl⟩

lemma resolve_of_mem {e : Entry} (he : e ∈ r.entries) :
    r.resolve e.breakpoint.name = .ok e.breakpoint := by
  have hfind : r.find? e.breakpoint.name = some e := hr.find?_eq_some_iff.mpr ⟨he, rfl⟩
  simp only [resolve, entry, hfind]
  rfl

lemma media_of_mem {e : Entry} (he : e ∈ r.entries) :
    r.media e.breakpoint.name = .ok e.media := by
  have hfind : r.find? e.breakpoint.name = some e := hr.find?_eq_some_iff.mpr ⟨he, rfl⟩
  simp only [media, entry, hfind]
  rfl

lemma predicate_of_mem {e : Entry} (he : e ∈ r.entries) :
    r.predicate e.breakpoint.name = .ok e.media.predicate := by
  rw [predicate, hr.media_of_mem he]
  rfl

lemma contains_iff {name : String} :
    r.contains name = true ↔ ∃ e ∈ r.entries, e.breakpoint.name = name := by
  rw [contains, Option.isSome_iff_exists]
  constructor
  · rintro ⟨rank, h⟩
    obtain ⟨e, he, hname⟩ := (hr.lookup_ranks name rank).mp h
    exact ⟨e, List.mem_map_of_mem he, hname⟩
  · rintro ⟨e, he, hname⟩
    exact ⟨e.breakpoint.rank, (hr.lookup_ranks _ _).mpr ⟨e, hr.mem_holders_iff.mpr ⟨he, rfl⟩, hname⟩⟩

end WellFormed

end Registry
end MediaSheets
