import MediaSheets.Proofs.InversionHistory
import MediaSheets.Proofs.PlanHistory
import MediaSheets.Proofs.RelabelledRegistry

/-!
# Compilations under other labels

Fragments are relabelled with the registry they are meant for. The plan is then relabelled as a
whole, and as no label comes into a stylesheet, its text stays. The inversions are relabelled one
by one when the components stay apart.
-/

namespace MediaSheets

namespace Relabelling

variable (ρ : Relabelling)

def target : Target → Target
  | .universal => .universal
  | .breakpoint name => .breakpoint (ρ.name name)

def fragment (f : Fragment) : Fragment := ⟨ρ.component f.component, ρ.target f.target, f.text⟩

def inversion (v : Inversion) : Inversion :=
  ⟨ρ.component v.component, ρ.target v.earlier, ρ.target v.later⟩

def blockTarget : BlockTarget → BlockTarget
  | .universal => .universal
  | .breakpoint name rank media => .breakpoint (ρ.name name) (ρ.rank rank) media

/-- A block under the new labels. Components that get the same id are named once. -/
def block (b : Block) : Block where
  target := ρ.blockTarget b.target
  body := b.body
  components := distinct (b.components.map ρ.component)
  fragmentCount := b.fragmentCount

end Relabelling

/-- The targets whose name, if they have one, is among some names. -/
def targetsWithin (names : Set String) : Set Target :=
  {t | ∀ name, t.name? = some name → name ∈ names}

lemma Relabelling.Faithful.target {ρ : Relabelling} {ranks : Set Int32} {names : Set String}
    (hρ : ρ.Faithful ranks names) : Set.InjOn ρ.target (targetsWithin names) := by
  intro t ht u hu h
  cases t with
  | universal =>
    cases u with
    | universal => rfl
    | breakpoint name => simp [Relabelling.target] at h
  | breakpoint name =>
    cases u with
    | universal => simp [Relabelling.target] at h
    | breakpoint name' =>
      have hnames := Target.breakpoint.inj h
      rw [hρ.name (ht name rfl) (hu name' rfl) hnames]

/-! ### First occurrences -/

section Distinct

variable {α β : Type} [BEq α] [LawfulBEq α] [BEq β] [LawfulBEq β]

/-- Elements that become the same count once, whether or not they were made distinct before. -/
lemma distinct_map_distinct (f : α → β) (l : List α) :
    distinct ((distinct l).map f) = distinct (l.map f) := by
  induction l with
  | nil => rfl
  | cons a l ih =>
    have hsame : ∀ b, ((f b != f a) && (b != a)) = (f b != f a) := by
      intro b
      by_cases hb : b = a
      · simp [hb]
      · simp [hb]
    have hfilter : ∀ l : List α, (distinct ((l.filter (· != a)).map f)).filter (· != f a) =
        (distinct (l.map f)).filter (· != f a) := by
      intro l
      rw [← distinct_filter, ← distinct_filter, List.filter_map, List.filter_map,
        List.filter_filter]
      simp only [Function.comp_apply, hsame]
      rfl
    rw [distinct, List.map_cons, distinct, hfilter, ih, List.map_cons, distinct]

lemma distinct_map_of_injOn {f : α → β} {s : Set α} (hf : Set.InjOn f s) {l : List α}
    (hl : ∀ a ∈ l, a ∈ s) : distinct (l.map f) = (distinct l).map f := by
  induction l with
  | nil => rfl
  | cons a l ih =>
    have hrest := ih fun b hb => hl b (List.mem_cons_of_mem _ hb)
    rw [List.map_cons, distinct, hrest, distinct, List.map_cons, List.filter_map]
    congr 2
    apply List.filter_congr
    intro b hb
    have hiff := hf.eq_iff (hl b (List.mem_cons_of_mem _ (mem_distinct.mp hb))) (hl a (by simp))
    rw [Bool.eq_iff_iff, Function.comp_apply, bne_iff_ne, bne_iff_ne, ne_eq, hiff]

end Distinct

/-- Keys that stay apart split a list into the same parts. -/
lemma withKey_map_of_injOn {α τ : Type} [DecidableEq τ] (key : α → τ) {f : α → α} {g : τ → τ}
    {keys : Set τ} (hg : Set.InjOn g keys) (hkey : ∀ a, key (f a) = g (key a)) {l : List α}
    (hl : ∀ a ∈ l, key a ∈ keys) {t : τ} (ht : t ∈ keys) :
    withKey key (l.map f) (g t) = (withKey key l t).map f := by
  rw [← map_withKey, withKey, withKey]
  congr 1
  apply List.filter_congr
  intro a ha
  rw [decide_eq_decide, Function.comp_apply, hkey]
  exact hg.eq_iff (hl a ha) ht

lemma find?_map_of_iff {α β : Type} {f : α → β} {p : β → Bool} {q : α → Bool} {l : List α}
    (h : ∀ a ∈ l, p (f a) = q a) : (l.map f).find? p = (l.find? q).map f := by
  induction l with
  | nil => rfl
  | cons a l ih =>
    have hrest := ih fun a ha => h a (List.mem_cons_of_mem _ ha)
    rw [List.map_cons, List.find?_cons, List.find?_cons, h a (by simp), hrest]
    cases q a <;> rfl

lemma Block.ofFragments_relabel (ρ : Relabelling) (t : BlockTarget) (fs : List Fragment) :
    Block.ofFragments (ρ.blockTarget t) (fs.map ρ.fragment) = ρ.block (.ofFragments t fs) := by
  have hcomponents : distinct ((fs.map ρ.fragment).map Fragment.component) =
      distinct ((distinct (fs.map Fragment.component)).map ρ.component) := by
    rw [distinct_map_distinct, List.map_map, List.map_map]
    rfl
  have htexts : (fs.map ρ.fragment).map Fragment.text = fs.map Fragment.text := by
    rw [List.map_map]
    rfl
  rw [ofFragments, hcomponents, joinedText, htexts, List.length_map]
  rfl

lemma Relabelling.toTarget_blockTarget (ρ : Relabelling) (t : BlockTarget) :
    (ρ.blockTarget t).toTarget = ρ.target t.toTarget := by
  cases t <;> rfl

namespace Registry.Within

variable {ρ : Relabelling} {r : Registry} {ranks : Set Int32} {names : Set String}

lemma rank_mem (hr : r.Within ranks names) {t : Target} {rank : Int32}
    (h : r.rank? t = some rank) : rank ∈ ranks := by
  cases t with
  | universal => contradiction
  | breakpoint name =>
    obtain ⟨e, he, rfl⟩ := Option.map_eq_some_iff.mp h
    obtain ⟨_, -, hfind⟩ := Option.bind_eq_some_iff.mp he
    have hmem := Registry.mem_of_lookup_eq_some hfind
    exact (hr.entries e (List.mem_map_of_mem hmem)).rank

lemma toTarget_mem (hr : r.Within ranks names) {mode : Mode} {t : BlockTarget}
    (ht : t ∈ r.blockTargets mode) : t.toTarget ∈ targetsWithin names := by
  rcases List.mem_cons.mp ht with rfl | ht
  · intro name hname
    contradiction
  · obtain ⟨e, he, rfl⟩ := List.mem_map.mp ht
    rintro _ ⟨⟩
    exact (hr.entries e (List.mem_filter.mp he).1).name

variable (hr : r.Within ranks names) (hρ : ρ.Faithful ranks names)
include hr hρ

/-! ### Targets -/

lemma rank?_relabel {t : Target} (ht : t ∈ targetsWithin names) :
    (ρ.registry r).rank? (ρ.target t) = (r.rank? t).map ρ.rank := by
  cases t with
  | universal => rfl
  | breakpoint name =>
    rw [Relabelling.target, rank?, hr.find?_relabel hρ (ht name rfl), rank?]
    cases r.find? name <;> rfl

lemma check_relabel {t : Target} (ht : t ∈ targetsWithin names) :
    (ρ.registry r).check (ρ.target t) = ρ.result id (r.check t) := by
  cases t with
  | universal => rfl
  | breakpoint name =>
    rw [Relabelling.target, check, hr.contains_relabel hρ (ht name rfl), check]
    cases r.contains name <;> rfl

lemma height_lt_iff {t u : Target} (ht : t ∈ targetsWithin names) (hu : u ∈ targetsWithin names) :
    (ρ.registry r).height (ρ.target t) < (ρ.registry r).height (ρ.target u) ↔
      r.height t < r.height u := by
  simp only [height_eq, hr.rank?_relabel hρ ht, hr.rank?_relabel hρ hu]
  cases hrank : r.rank? t with
  | none =>
    cases r.rank? u with
    | none => exact Iff.rfl
    | some b => exact iff_of_true (WithBot.bot_lt_coe _) (WithBot.bot_lt_coe _)
  | some a =>
    cases hrank' : r.rank? u with
    | none => exact iff_of_false not_lt_bot not_lt_bot
    | some b =>
      have hlt := hρ.rank.lt_iff_lt (hr.rank_mem hrank) (hr.rank_mem hrank')
      exact WithBot.coe_lt_coe.trans (hlt.trans WithBot.coe_lt_coe.symm)

/-! ### Plans -/

lemma isLegacy_relabel {b : Breakpoint} (hb : b.Within ranks names) :
    (ρ.registry r).isLegacy (ρ.breakpoint b) = r.isLegacy b := by
  simp only [isLegacy, Relabelling.breakpoint]
  cases b.condition with
  | width bound =>
    cases bound with
    | atLeast px => exact decide_eq_decide.mpr (hρ.rank.le_iff_le hb.rank hr.cutoff)
    | atMost px => rfl
  | hiDpi => rfl
  | pairedHiDpi base => rfl

lemma blockTargets_relabel (mode : Mode) :
    (ρ.registry r).blockTargets mode = (r.blockTargets mode).map ρ.blockTarget := by
  have hincludes : ∀ e ∈ r.entries,
      (ρ.registry r).includes mode (ρ.entry e).breakpoint = r.includes mode e.breakpoint := by
    intro e he
    cases mode with
    | modern => rfl
    | legacy => exact hr.isLegacy_relabel hρ (hr.entries e he)
  have hentries : (ρ.registry r).entries.filter
      (fun e => (ρ.registry r).includes mode e.breakpoint) =
        (r.entries.filter fun e => r.includes mode e.breakpoint).map ρ.entry := by
    rw [ρ.entries_registry, List.filter_map]
    congr 1
    exact List.filter_congr hincludes
  rw [blockTargets, hentries, blockTargets, List.map_cons, List.map_map, List.map_map]
  rfl

variable {fs : List Fragment} (hfs : ∀ f ∈ fs, f.target ∈ targetsWithin names)
include hfs

/-- The plan is relabelled as a whole. -/
theorem planOf_relabel (mode : Mode) :
    (ρ.registry r).planOf mode (fs.map ρ.fragment) = (r.planOf mode fs).map ρ.block := by
  have hpart : ∀ t ∈ r.blockTargets mode,
      withKey Fragment.target (fs.map ρ.fragment) (ρ.blockTarget t).toTarget =
        (withKey Fragment.target fs t.toTarget).map ρ.fragment := by
    intro t ht
    rw [ρ.toTarget_blockTarget,
      withKey_map_of_injOn Fragment.target hρ.target (fun _ => rfl) hfs (hr.toTarget_mem ht)]
  have hkept : ∀ t ∈ r.blockTargets mode,
      (!(withKey Fragment.target (fs.map ρ.fragment) (ρ.blockTarget t).toTarget).isEmpty) =
        !(withKey Fragment.target fs t.toTarget).isEmpty := by
    intro t ht
    rw [hpart t ht, List.isEmpty_map]
  -- the same targets have fragments, and each of them the relabelled ones
  rw [planOf, hr.blockTargets_relabel hρ, List.filter_map, List.map_map, planOf, List.map_map]
  simp only [Function.comp_def]
  rw [List.filter_congr hkept]
  apply List.map_congr_left
  intro t ht
  rw [hpart t (List.mem_filter.mp ht).1, Block.ofFragments_relabel]

/-! ### Inversions -/

omit hfs in
lemma highest?_relabel {ts : List Target} (hts : ∀ t ∈ ts, t ∈ targetsWithin names) :
    (ρ.registry r).highest? (ts.map ρ.target) = (r.highest? ts).map ρ.target := by
  apply find?_map_of_iff
  intro t ht
  rw [List.all_map, Bool.eq_iff_iff, List.all_eq_true, List.all_eq_true]
  have hle : ∀ u ∈ ts, (ρ.registry r).height (ρ.target u) ≤ (ρ.registry r).height (ρ.target t) ↔
      r.height u ≤ r.height t := by
    intro u hu
    rw [← not_lt, hr.height_lt_iff hρ (hts t ht) (hts u hu), not_lt]
  constructor
  · intro h u hu
    exact decide_eq_true ((hle u hu).mp (of_decide_eq_true (h u hu)))
  · intro h u hu
    exact decide_eq_true ((hle u hu).mpr (of_decide_eq_true (h u hu)))

variable {components : Set String} (hcomponents : Set.InjOn ρ.component components)
  (hcs : ∀ f ∈ fs, f.component ∈ components)
include hcomponents hcs

lemma drop?_relabel {f : Fragment} (hf : f.target ∈ targetsWithin names)
    (hc : f.component ∈ components) :
    (ρ.registry r).drop? (fs.map ρ.fragment) (ρ.fragment f) = (r.drop? fs f).map ρ.inversion := by
  have htargets : targetsOf (ρ.fragment f).component (fs.map ρ.fragment) =
      (targetsOf f.component fs).map ρ.target := by
    have hpart : withKey Fragment.component (fs.map ρ.fragment) (ρ.component f.component) =
        (withKey Fragment.component fs f.component).map ρ.fragment :=
      withKey_map_of_injOn Fragment.component hcomponents (fun _ => rfl) hcs hc
    rw [targetsOf, Relabelling.fragment, hpart, targetsOf, List.map_map, List.map_map]
    rfl
  have hwithin : ∀ t ∈ targetsOf f.component fs, t ∈ targetsWithin names := by
    intro t ht
    obtain ⟨g, hg, -, rfl⟩ := mem_targetsOf.mp ht
    exact hfs g hg
  rw [drop?, htargets, hr.highest?_relabel hρ hwithin, drop?]
  cases htop : r.highest? (targetsOf f.component fs) with
  | none => rfl
  | some top =>
    have hlt : (ρ.registry r).height (ρ.fragment f).target < (ρ.registry r).height (ρ.target top) ↔
        r.height f.target < r.height top :=
      hr.height_lt_iff hρ hf (hwithin top (r.mem_of_highest? htop))
    simp only [Option.map_some, hlt]
    split <;> rfl

lemma drops_relabel :
    (ρ.registry r).drops (fs.map ρ.fragment) = (r.drops fs).map ρ.inversion := by
  induction fs using List.reverseRecOn with
  | nil => rfl
  | append_singleton fs f ih =>
    have hfs' : ∀ g ∈ fs, g.target ∈ targetsWithin names := fun g hg => hfs g (by simp [hg])
    have hcs' : ∀ g ∈ fs, g.component ∈ components := fun g hg => hcs g (by simp [hg])
    rw [List.map_append, List.map_singleton, drops_append_singleton, ih hfs' hcs',
      hr.drop?_relabel hρ hfs' hcomponents hcs' (hfs f (by simp)) (hcs f (by simp)),
      drops_append_singleton, List.map_append]
    cases r.drop? fs f <;> rfl

theorem inversions_relabel :
    (ρ.registry r).inversions (fs.map ρ.fragment) = (r.inversions fs).map ρ.inversion := by
  have hinj : Set.InjOn ρ.inversion
      {v | v.component ∈ components ∧ v.earlier ∈ targetsWithin names ∧
        v.later ∈ targetsWithin names} := by
    rintro ⟨c, t, u⟩ ⟨hc, ht, hu⟩ ⟨c', t', u'⟩ ⟨hc', ht', hu'⟩ h
    obtain ⟨hcomponent, hearlier, hlater⟩ := Inversion.mk.inj h
    obtain rfl : c = c' := hcomponents hc hc' hcomponent
    obtain rfl : t = t' := hρ.target ht ht' hearlier
    obtain rfl : u = u' := hρ.target hu hu' hlater
    rfl
  rw [inversions_eq, hr.drops_relabel hρ hfs hcomponents hcs, inversions_eq]
  -- only what occurs in the history is kept apart, and inversions are made of nothing else
  apply distinct_map_of_injOn hinj
  intro v hv
  have hmem : v ∈ r.inversions fs := by
    rw [inversions_eq]
    exact mem_distinct.mpr hv
  obtain ⟨i, j, f, g, -, hf, hg, hc, -, hearlier, hlater, -⟩ := r.exists_pair_of_inversion hmem
  have hf := List.mem_of_getElem? hf
  have hg := List.mem_of_getElem? hg
  exact ⟨hc ▸ hcs f hf, hearlier ▸ hfs f hf, hlater ▸ hfs g hg⟩

end Registry.Within

/-! ### Stylesheets -/

lemma Relabelling.modernText_block (ρ : Relabelling) (b : Block) :
    (ρ.block b).modernText = b.modernText := by
  obtain ⟨t, body, components, fragmentCount⟩ := b
  cases t <;> rfl

/-- No label comes into a stylesheet with conditions. -/
lemma Relabelling.modernSheet_map_block (ρ : Relabelling) (plan : List Block) :
    modernSheet (plan.map ρ.block) = modernSheet plan := by
  rw [modernSheet, List.map_map, modernSheet]
  congr 1
  exact List.map_congr_left fun b _ => ρ.modernText_block b

lemma Relabelling.legacySheet_map_block (ρ : Relabelling) (plan : List Block) :
    legacySheet (plan.map ρ.block) = legacySheet plan := by
  rw [legacySheet, List.map_map, legacySheet]
  rfl

/-! ### Runs -/

/-- The ranks that are compared with each other. -/
def comparedRanks (cutoff : Int32) (bs : List Breakpoint) : Set Int32 :=
  {rank | rank = cutoff ∨ ∃ b ∈ bs, b.rank = rank}

/-- The names of breakpoints, and those that breakpoints and fragments refer to. -/
def usedNames (bs : List Breakpoint) (fs : List Fragment) : Set String :=
  {name | (∃ b ∈ bs, b.name = name ∨ b.condition.base? = some name) ∨
    ∃ f ∈ fs, f.target.name? = some name}

lemma Breakpoint.within_of_mem {bs : List Breakpoint} {b : Breakpoint} (hb : b ∈ bs)
    (cutoff : Int32) (fs : List Fragment) :
    b.Within (comparedRanks cutoff bs) (usedNames bs fs) where
  rank := .inr ⟨b, hb, rfl⟩
  name := .inl ⟨b, hb, .inl rfl⟩
  base := fun _ hbase => .inl ⟨b, hb, .inr hbase⟩

lemma Registry.Within.filter_knows_relabel {ρ : Relabelling} {r : Registry} {ranks : Set Int32}
    {names : Set String} (hr : r.Within ranks names) (hρ : ρ.Faithful ranks names)
    (hw : r.WellFormed) (hw' : (ρ.registry r).WellFormed) {fs : List Fragment}
    (hfs : ∀ f ∈ fs, f.target ∈ targetsWithin names) :
    (fs.map ρ.fragment).filter (fun f => (ρ.registry r).Knows f.target) =
      (fs.filter fun f => r.Knows f.target).map ρ.fragment := by
  rw [List.filter_map]
  congr 1
  apply List.filter_congr
  intro f hf
  rw [Function.comp_apply, decide_eq_decide, ← hw'.check_eq_ok_iff_knows,
    ← hw.check_eq_ok_iff_knows]
  have hcheck : (ρ.registry r).check (ρ.fragment f).target = _ := hr.check_relabel hρ (hfs f hf)
  rw [hcheck]
  cases r.check f.target <;> simp [Relabelling.result]

/-- Only the order of the ranks and the identity of the names matter. Under other labels the same
registrations come off, the same fragments are accepted, and the stylesheets are the same. The
inversions are relabelled one by one if the components stay apart. -/
theorem relabelled_run (ρ : Relabelling) {cutoff : Int32} {bs : List Breakpoint} {r : Registry}
    (h : (Registry.empty cutoff).registerAll bs = .ok r) (fs : List Fragment)
    (hranks : StrictMonoOn ρ.rank (comparedRanks cutoff bs))
    (hnames : Set.InjOn ρ.name (usedNames bs fs)) (log log' : WarningLog) :
    (Registry.empty (ρ.rank cutoff)).registerAll (bs.map ρ.breakpoint) = .ok (ρ.registry r) ∧
      ∃ outcomes c c' l l',
        (Compilation.start r).receiveAll log (fs.map .fragment) = (outcomes, c, l) ∧
        (Compilation.start (ρ.registry r)).receiveAll log' ((fs.map ρ.fragment).map .fragment) =
          (outcomes.map (ρ.result id), c', l') ∧
        (∀ mode, c'.plan mode = (c.plan mode).map ρ.block) ∧
        c'.modern = c.modern ∧ c'.legacy = c.legacy ∧
        (Set.InjOn ρ.component {component | ∃ f ∈ fs, f.component = component} →
          c'.inversions = c.inversions.map ρ.inversion) := by
  have hρ : ρ.Faithful (comparedRanks cutoff bs) (usedNames bs fs) := ⟨hranks, hnames⟩
  have hbs : ∀ b ∈ bs, b.Within (comparedRanks cutoff bs) (usedNames bs fs) :=
    fun b hb => Breakpoint.within_of_mem hb cutoff fs
  have hempty : (Registry.empty cutoff).Within (comparedRanks cutoff bs) (usedNames bs fs) :=
    Registry.within_empty (.inl rfl) _
  have hr := hempty.registerAll hbs h
  have h' : (Registry.empty (ρ.rank cutoff)).registerAll (bs.map ρ.breakpoint) =
      .ok (ρ.registry r) := by
    have hrelabel := hempty.registerAll_relabel hρ hbs
    rw [h] at hrelabel
    exact hrelabel
  have hw := ((Registry.Reachable.empty cutoff).registerAll h).wellFormed
  have hw' := ((Registry.Reachable.empty (ρ.rank cutoff)).registerAll h').wellFormed
  have hfs : ∀ f ∈ fs, f.target ∈ targetsWithin (usedNames bs fs) :=
    fun f hf name hname => .inr ⟨f, hf, hname⟩
  obtain ⟨⟨c, l⟩, haccepted, hrun⟩ :=
    Compilation.receiveAll_fragments hw fs (c := .start r) rfl log
  obtain ⟨⟨c', l'⟩, haccepted', hrun'⟩ :=
    Compilation.receiveAll_fragments hw' (fs.map ρ.fragment) (c := .start (ρ.registry r)) rfl log'
  rw [hr.filter_knows_relabel hρ hw hw' hfs] at haccepted'
  have hkept : ∀ f ∈ fs.filter (fun f => r.Knows f.target), f ∈ fs :=
    fun f hf => (List.mem_filter.mp hf).1
  have hplan : ∀ mode, c'.plan mode = (c.plan mode).map ρ.block := by
    intro mode
    rw [(Compilation.holds_of_submitAll haccepted').plan_eq,
      hr.planOf_relabel hρ (fun f hf => hfs f (hkept f hf)),
      (Compilation.holds_of_submitAll haccepted).plan_eq]
  refine ⟨h', _, c, c', l, l', hrun, ?_, hplan, ?_, ?_, ?_⟩
  · rw [hrun', List.map_map, List.map_map]
    congr 1
    apply List.map_congr_left
    intro f hf
    exact hr.check_relabel hρ (hfs f hf)
  · rw [Compilation.modern, hplan, ρ.modernSheet_map_block, Compilation.modern]
  · rw [Compilation.legacy, hplan, ρ.legacySheet_map_block, Compilation.legacy]
  · intro hcomponents
    rw [Compilation.inversions_of_submitAll haccepted',
      hr.inversions_relabel hρ (fun f hf => hfs f (hkept f hf)) hcomponents
        (fun f hf => ⟨f, hkept f hf, rfl⟩), Compilation.inversions_of_submitAll haccepted]

/-- New labels for the mixed breakpoints, whose ranks move off one limit and up to the other. -/
def stretched : Relabelling where
  rank rank := if rank = 5 then Int32.maxValue else if rank = Int32.minValue then -100 else rank
  name name := "x-" ++ name
  component component := "my-" ++ component

lemma strictMonoOn_stretched :
    StrictMonoOn stretched.rank (comparedRanks 5 Registry.mixedBreakpoints) := by
  intro a ha b hb hlt
  simp only [comparedRanks, Registry.mixedBreakpoints, List.mem_cons, List.not_mem_nil, or_false,
    exists_eq_or_imp, exists_eq_left, Set.mem_ofPred_eq] at ha hb
  rcases ha with rfl | rfl | rfl | rfl | rfl
  all_goals
    rcases hb with rfl | rfl | rfl | rfl | rfl
    all_goals
      revert hlt
      decide

/-- A fragment for an unknown breakpoint stands between two that fall in rank. -/
theorem stretched_run_of_mixed :
    (Registry.empty Int32.maxValue).registerAll
        (Registry.mixedBreakpoints.map stretched.breakpoint) = .ok (stretched.registry .mixed) ∧
      ∃ c c' l l',
        (Compilation.start .mixed).receiveAll {}
          ([⟨"card", .breakpoint "wide", "a"⟩, ⟨"card", .breakpoint "gone", "b"⟩,
            ⟨"card", .breakpoint "narrow", "c"⟩].map .fragment) =
              ([.ok (), .error (.unknownBreakpoint "gone"), .ok ()], c, l) ∧
        (Compilation.start (stretched.registry .mixed)).receiveAll {}
          ([⟨"my-card", .breakpoint "x-wide", "a"⟩, ⟨"my-card", .breakpoint "x-gone", "b"⟩,
            ⟨"my-card", .breakpoint "x-narrow", "c"⟩].map .fragment) =
              ([.ok (), .error (.unknownBreakpoint "x-gone"), .ok ()], c', l') ∧
        c'.modern = c.modern ∧ c'.legacy = c.legacy ∧
        c'.inversions = [⟨"my-card", .breakpoint "x-wide", .breakpoint "x-narrow"⟩] := by
  have h : (Registry.empty 5).registerAll Registry.mixedBreakpoints = .ok .mixed := rfl
  have hinjective : ∀ front : String, Function.Injective (front ++ ·) :=
    fun front _ _ h => (String.append_right_inj front).mp h
  obtain ⟨h', outcomes, c, c', l, l', hrun, hrun', -, hmodern, hlegacy, hinversions⟩ :=
    relabelled_run stretched h
      [⟨"card", .breakpoint "wide", "a"⟩, ⟨"card", .breakpoint "gone", "b"⟩,
        ⟨"card", .breakpoint "narrow", "c"⟩] strictMonoOn_stretched (hinjective "x-").injOn {} {}
  obtain ⟨rfl, hstate⟩ := Prod.mk.inj hrun
  have hsubmit : (Compilation.start .mixed).submitAll {}
      [⟨"card", .breakpoint "wide", "a"⟩, ⟨"card", .breakpoint "narrow", "c"⟩] = .ok (c, l) :=
    congrArg Except.ok hstate
  refine ⟨h', c, c', l, l', hrun, hrun', hmodern, hlegacy, ?_⟩
  rw [hinversions (hinjective "my-").injOn, Compilation.inversions_of_submitAll hsubmit]
  decide

end MediaSheets
