import MediaSheets.Proofs.AlikeRegistries
import MediaSheets.Proofs.FirstFailure

/-!
# The order of registration

Breakpoints can be registered one after another when `Registry.Registrable` holds of them in
this order: nothing but the place of a base before its variants hangs on it. All orders that
can be registered lead to registries which nothing tells apart.
-/

namespace MediaSheets
namespace Registry

/-- Breakpoints that can be registered in this order. -/
structure Registrable (bs : List Breakpoint) : Prop where
  names : (bs.map (·.name)).Nodup
  ranks : (bs.map (·.rank)).Nodup
  bases : ∀ (i : Nat) b base, bs[i]? = some b → b.condition = .pairedHiDpi base →
    ∃ other ∈ bs.take i, other.name = base ∧ other.kind = .baseWidth

/-! ### What registrations leave -/

lemma breakpoints_perm_of_register {r r' : Registry} {b : Breakpoint} (h : r.register b = .ok r') :
    r'.breakpoints.Perm (b :: r.breakpoints) := by
  obtain ⟨-, hrank, media, -, rfl⟩ := register_eq_ok_iff.mp h
  have hperm : (r.add ⟨b, media⟩).entries.Perm (⟨b, media⟩ :: r.entries) := entries_add_perm hrank
  exact hperm.map _

lemma registerAll_append_singleton_eq_ok_iff {r r' : Registry} {bs : List Breakpoint}
    {b : Breakpoint} :
    r.registerAll (bs ++ [b]) = .ok r' ↔ ∃ next, r.registerAll bs = .ok next ∧
      next.register b = .ok r' :=
  foldlM_append_singleton_eq_ok_iff

/-- All breakpoints are registered, and no others. -/
lemma breakpoints_perm_of_registerAll {r r' : Registry} {bs : List Breakpoint}
    (h : r.registerAll bs = .ok r') : r'.breakpoints.Perm (r.breakpoints ++ bs) := by
  induction bs using List.reverseRecOn generalizing r' with
  | nil =>
    obtain rfl := Except.ok.inj h
    rw [List.append_nil]
  | append_singleton bs b ih =>
    obtain ⟨next, hbs, hb⟩ := registerAll_append_singleton_eq_ok_iff.mp h
    have hperm := (breakpoints_perm_of_register hb).trans ((ih hbs).cons b)
    rw [← List.append_assoc]
    exact hperm.trans (List.perm_append_singleton b _).symm

lemma cutoff_of_registerAll {r r' : Registry} {bs : List Breakpoint}
    (h : r.registerAll bs = .ok r') : r'.cutoff = r.cutoff := by
  induction bs using List.reverseRecOn generalizing r' with
  | nil =>
    obtain rfl := Except.ok.inj h
    rfl
  | append_singleton bs b ih =>
    obtain ⟨next, hbs, hb⟩ := registerAll_append_singleton_eq_ok_iff.mp h
    obtain ⟨-, -, media, -, rfl⟩ := register_eq_ok_iff.mp hb
    have hcutoff := ih hbs
    exact hcutoff

lemma register_withCutoff (r : Registry) (cutoff : Int32) (b : Breakpoint) :
    (r.withCutoff cutoff).register b = (r.register b).map (·.withCutoff cutoff) := by
  have hcontains : (r.withCutoff cutoff).contains b.name = r.contains b.name := rfl
  have hfindAt : (r.withCutoff cutoff).findAt? b.rank = r.findAt? b.rank := rfl
  have hmedia : (r.withCutoff cutoff).mediaOf b = r.mediaOf b := rfl
  unfold register
  rw [hcontains, hfindAt, hmedia]
  cases r.contains b.name with
  | true => rfl
  | false =>
    cases r.findAt? b.rank with
    | some holder => rfl
    | none =>
      cases r.mediaOf b with
      | error error => rfl
      | ok media => rfl

/-- It makes no difference when the cutoff is set. -/
lemma registerAll_withCutoff (r : Registry) (cutoff : Int32) (bs : List Breakpoint) :
    (r.withCutoff cutoff).registerAll bs = (r.registerAll bs).map (·.withCutoff cutoff) := by
  induction bs generalizing r with
  | nil => rfl
  | cons b bs ih =>
    have hcons : ∀ r : Registry, r.registerAll (b :: bs) = r.register b >>= (·.registerAll bs) :=
      fun _ => List.foldlM_cons
    rw [hcons, hcons, register_withCutoff]
    cases r.register b with
    | error error => rfl
    | ok next => exact ih next

/-- A registry that starts empty holds what was registered. -/
lemma mem_breakpoints_of_registerAll {cutoff : Int32} {r : Registry} {bs : List Breakpoint}
    (h : (Registry.empty cutoff).registerAll bs = .ok r) {b : Breakpoint} :
    b ∈ r.breakpoints ↔ b ∈ bs :=
  (breakpoints_perm_of_registerAll h).mem_iff

/-! ### What can be registered -/

lemma admits_iff_of_registerAll {cutoff : Int32} {r : Registry} {bs : List Breakpoint}
    (h : (Registry.empty cutoff).registerAll bs = .ok r) {b : Breakpoint} :
    r.Admits b ↔ b.name ∉ bs.map (·.name) ∧ b.rank ∉ bs.map (·.rank) ∧
      ∀ base, b.condition = .pairedHiDpi base →
        ∃ other ∈ bs, other.name = base ∧ other.kind = .baseWidth := by
  have hmem : ∀ b, b ∈ r.breakpoints ↔ b ∈ bs := fun _ => mem_breakpoints_of_registerAll h
  constructor
  · rintro ⟨hname, hrank, hbase⟩
    simp only [FreeName, FreeRank, hmem] at hname hrank hbase
    exact ⟨by simpa using hname, by simpa using hrank, hbase⟩
  · rintro ⟨hname, hrank, hbase⟩
    constructor
    · simpa [FreeName, hmem] using hname
    · simpa [FreeRank, hmem] using hrank
    · simpa only [hmem] using hbase

lemma registrable_nil : Registrable [] where
  names := List.nodup_nil
  ranks := List.nodup_nil
  bases := by simp

lemma nodup_append_singleton_iff {α : Type} {l : List α} {a : α} :
    (l ++ [a]).Nodup ↔ a ∉ l ∧ l.Nodup := by
  rw [(List.perm_append_singleton a l).nodup_iff, List.nodup_cons]

lemma registrable_append_singleton_iff {bs : List Breakpoint} {b : Breakpoint} :
    Registrable (bs ++ [b]) ↔ Registrable bs ∧ b.name ∉ bs.map (·.name) ∧
      b.rank ∉ bs.map (·.rank) ∧ ∀ base, b.condition = .pairedHiDpi base →
        ∃ other ∈ bs, other.name = base ∧ other.kind = .baseWidth := by
  have hearlier : ∀ i, i ≤ bs.length → (bs ++ [b]).take i = bs.take i :=
    fun i hi => List.take_append_of_le_length hi
  constructor
  · rintro ⟨hnames, hranks, hbases⟩
    rw [List.map_append, List.map_singleton, nodup_append_singleton_iff] at hnames hranks
    refine ⟨⟨hnames.2, hranks.2, ?_⟩, hnames.1, hranks.1, ?_⟩
    · intro i b' base hb' hcondition
      obtain ⟨hi, -⟩ := List.getElem?_eq_some_iff.mp hb'
      rw [← hearlier i hi.le]
      exact hbases i b' base (by rwa [List.getElem?_append_left hi]) hcondition
    · intro base hcondition
      have hlast := hbases bs.length b base List.getElem?_concat_length hcondition
      rwa [hearlier _ le_rfl, List.take_length] at hlast
  · rintro ⟨⟨hnames, hranks, hbases⟩, hname, hrank, hbase⟩
    constructor
    · rw [List.map_append, List.map_singleton, nodup_append_singleton_iff]
      exact ⟨hname, hnames⟩
    · rw [List.map_append, List.map_singleton, nodup_append_singleton_iff]
      exact ⟨hrank, hranks⟩
    · intro i b' base hb' hcondition
      obtain ⟨hi, -⟩ := List.getElem?_eq_some_iff.mp hb'
      rw [List.length_append, List.length_singleton, Nat.lt_succ_iff] at hi
      rw [hearlier i hi]
      rcases hi.lt_or_eq with hlt | rfl
      · rw [List.getElem?_append_left hlt] at hb'
        exact hbases i b' base hb' hcondition
      · rw [List.getElem?_concat_length] at hb'
        obtain rfl := Option.some.inj hb'
        rw [List.take_length]
        exact hbase base hcondition

theorem exists_registerAll_iff {cutoff : Int32} {bs : List Breakpoint} :
    (∃ r, (Registry.empty cutoff).registerAll bs = .ok r) ↔ Registrable bs := by
  induction bs using List.reverseRecOn with
  | nil => exact ⟨fun _ => registrable_nil, fun _ => ⟨_, rfl⟩⟩
  | append_singleton bs b ih =>
    rw [registrable_append_singleton_iff, ← ih]
    constructor
    · rintro ⟨r', h⟩
      obtain ⟨r, hbs, hb⟩ := registerAll_append_singleton_eq_ok_iff.mp h
      have hr := (Reachable.empty cutoff).registerAll hbs
      exact ⟨⟨r, hbs⟩, (admits_iff_of_registerAll hbs).mp (hr.exists_register_iff.mp ⟨r', hb⟩)⟩
    · rintro ⟨⟨r, hbs⟩, hadmits⟩
      have hr := (Reachable.empty cutoff).registerAll hbs
      obtain ⟨r', hb⟩ := hr.exists_register_iff.mpr ((admits_iff_of_registerAll hbs).mpr hadmits)
      exact ⟨r', registerAll_append_singleton_eq_ok_iff.mpr ⟨r, hbs, hb⟩⟩

/-! ### Orders -/

lemma WellFormed.breakpoints_ascending {r : Registry} (hr : r.WellFormed) :
    r.breakpoints.Pairwise fun b b' => b.rank < b'.rank :=
  List.pairwise_map.mpr hr.ascending

/-- Ranks leave one order for the breakpoints. -/
lemma WellFormed.breakpoints_eq_of_perm {r r' : Registry} (hr : r.WellFormed)
    (hr' : r'.WellFormed) (h : r'.breakpoints.Perm r.breakpoints) :
    r'.breakpoints = r.breakpoints := by
  refine h.eq_of_pairwise ?_ hr'.breakpoints_ascending hr.breakpoints_ascending
  intro b b' _ _ hlt hgt
  exact absurd hgt (Int32.not_lt.mpr (Int32.le_of_lt hlt))

/-- Breakpoints can be registered in an order exactly when names and ranks are distinct and
each variant comes after its base. Any two such orders of the same breakpoints lead to
registries that no lookup tells apart, and neither does anything made of fragments. -/
theorem registration_order (cutoff : Int32) (bs : List Breakpoint) :
    ((∃ r, (Registry.empty cutoff).registerAll bs = .ok r) ↔ Registrable bs) ∧
      ∀ bs' r r', bs'.Perm bs → (Registry.empty cutoff).registerAll bs = .ok r →
        (Registry.empty cutoff).registerAll bs' = .ok r' →
        r.Alike r' ∧ ∀ (fs : List Fragment) (log log' : WarningLog),
          ∃ outcomes c c' l l',
            (Compilation.start r).receiveAll log (fs.map .fragment) = (outcomes, c, l) ∧
            (Compilation.start r').receiveAll log' (fs.map .fragment) = (outcomes, c', l') ∧
            c.Matches c' := by
  refine ⟨exists_registerAll_iff, ?_⟩
  intro bs' r r' hperm h h'
  have hr := (Reachable.empty cutoff).registerAll h
  have hr' := (Reachable.empty cutoff).registerAll h'
  have hcutoff : r'.cutoff = r.cutoff :=
    (cutoff_of_registerAll h').trans (cutoff_of_registerAll h).symm
  have hbreakpoints : r'.breakpoints.Perm r.breakpoints :=
    ((breakpoints_perm_of_registerAll h').trans hperm).trans
      (breakpoints_perm_of_registerAll h).symm
  have heq := hr.wellFormed.breakpoints_eq_of_perm hr'.wellFormed hbreakpoints
  exact ⟨hr.alike hr' hcutoff heq, hr.exists_matches hr' hcutoff heq⟩

def mixedBreakpoints : List Breakpoint :=
  [⟨"wide", 5, .width (.atLeast 900)⟩, ⟨"dense", -3, .hiDpi⟩,
    ⟨"narrow", Int32.minValue, .width (.atMost 400)⟩, ⟨"wide2x", 0, .pairedHiDpi "wide"⟩]

/-- The mixed breakpoints in the order of their ranks, but for the base of the variant. -/
def rearrangedBreakpoints : List Breakpoint :=
  [⟨"narrow", Int32.minValue, .width (.atMost 400)⟩, ⟨"wide", 5, .width (.atLeast 900)⟩,
    ⟨"wide2x", 0, .pairedHiDpi "wide"⟩, ⟨"dense", -3, .hiDpi⟩]

/-- The two orders leave different registries that nothing tells apart. The order of the ranks
themselves cannot be registered. -/
theorem registration_of_rearranged :
    ∃ r r', (Registry.empty 5).registerAll mixedBreakpoints = .ok r ∧
      (Registry.empty 5).registerAll rearrangedBreakpoints = .ok r' ∧ r' ≠ r ∧ r.Alike r' ∧
      ¬Registrable mixed.breakpoints := by
  have h : (Registry.empty 5).registerAll mixedBreakpoints = .ok _ := rfl
  have h' : (Registry.empty 5).registerAll rearrangedBreakpoints = .ok _ := rfl
  have hperm : rearrangedBreakpoints.Perm mixedBreakpoints := by decide
  refine ⟨_, _, h, h', by decide, ((registration_order 5 _).2 _ _ _ hperm h h').1, ?_⟩
  rw [← (registration_order 5 mixed.breakpoints).1]
  rintro ⟨r, hr⟩
  have herror : (Registry.empty 5).registerAll mixed.breakpoints =
      .error (.danglingPair "wide2x" "wide") := rfl
  rw [herror] at hr
  contradiction

end Registry
end MediaSheets
