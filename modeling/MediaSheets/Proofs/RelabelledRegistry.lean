import MediaSheets.Fragment
import MediaSheets.Proofs.BlockOrder
import MediaSheets.Proofs.RegistrationOrder
import Mathlib.Data.Set.Function

/-!
# Registries under other labels

A `Relabelling` puts new ranks, names and component ids in place of old ones. It is `Faithful`
to some ranks and names when it keeps the order of the ranks and keeps the names apart. Nothing
else about them is ever looked at, so registration under the new labels goes the way it goes
under the old ones, and what is looked up is the same but for its labels.
-/

namespace MediaSheets

/-- New ranks, names and component ids for old ones. -/
structure Relabelling where
  rank : Int32 → Int32
  name : String → String
  component : String → String

namespace Relabelling

/-- The order of the ranks stays, and the names stay apart. -/
structure Faithful (ρ : Relabelling) (ranks : Set Int32) (names : Set String) : Prop where
  rank : StrictMonoOn ρ.rank ranks
  name : Set.InjOn ρ.name names

variable (ρ : Relabelling)

def condition : Condition → Condition
  | .width bound => .width bound
  | .hiDpi => .hiDpi
  | .pairedHiDpi base => .pairedHiDpi (ρ.name base)

def breakpoint (b : Breakpoint) : Breakpoint :=
  ⟨ρ.name b.name, ρ.rank b.rank, ρ.condition b.condition⟩

def entry (e : Entry) : Entry := ⟨ρ.breakpoint e.breakpoint, e.media⟩

def registry (r : Registry) : Registry where
  cutoff := ρ.rank r.cutoff
  holders := r.holders.map fun (rank, e) => (ρ.rank rank, ρ.entry e)
  ranks := r.ranks.map fun (name, rank) => (ρ.name name, ρ.rank rank)

lemma entries_registry (r : Registry) : (ρ.registry r).entries = r.entries.map ρ.entry := by
  rw [Registry.entries, registry, List.map_map, Registry.entries, List.map_map]
  rfl

def error : AuthoringError → AuthoringError
  | .duplicateName name => .duplicateName (ρ.name name)
  | .duplicateRank rank holder => .duplicateRank (ρ.rank rank) (ρ.name holder)
  | .danglingPair name base => .danglingPair (ρ.name name) (ρ.name base)
  | .invalidPair name base => .invalidPair (ρ.name name) (ρ.name base)
  | .unknownBreakpoint name => .unknownBreakpoint (ρ.name name)
  | .invalidBreakpoint name reason => .invalidBreakpoint (ρ.name name) reason
  | .unreadable reason => .unreadable reason

/-- What comes of a step under the new labels. -/
def result {α β : Type} (relabel : α → β) :
    Except AuthoringError α → Except AuthoringError β
  | .ok a => .ok (relabel a)
  | .error e => .error (ρ.error e)

end Relabelling

/-- All labels of a breakpoint are among some ranks and names. -/
structure Breakpoint.Within (b : Breakpoint) (ranks : Set Int32) (names : Set String) : Prop where
  rank : b.rank ∈ ranks
  name : b.name ∈ names
  base : ∀ base, b.condition.base? = some base → base ∈ names

/-- All labels of a registry are among some ranks and names. -/
structure Registry.Within (r : Registry) (ranks : Set Int32) (names : Set String) : Prop where
  cutoff : r.cutoff ∈ ranks
  keys : ∀ pair ∈ r.holders, pair.1 ∈ ranks
  entries : ∀ e ∈ r.entries, e.breakpoint.Within ranks names
  pairs : ∀ pair ∈ r.ranks, pair.1 ∈ names ∧ pair.2 ∈ ranks

lemma lookup_map_of_injOn {α β κ κ' : Type} [BEq κ] [LawfulBEq κ] [BEq κ'] [LawfulBEq κ']
    {f : κ → κ'} {keys : Set κ} (hf : Set.InjOn f keys) (g : α → β) {pairs : List (κ × α)}
    (hpairs : ∀ pair ∈ pairs, pair.1 ∈ keys) {k : κ} (hk : k ∈ keys) :
    (pairs.map fun (key, a) => (f key, g a)).lookup (f k) = (pairs.lookup k).map g := by
  induction pairs with
  | nil => rfl
  | cons pair pairs ih =>
    obtain ⟨key, a⟩ := pair
    have hrest := ih fun pair hpair => hpairs pair (List.mem_cons_of_mem _ hpair)
    by_cases h : k = key
    · subst h
      simp
    · have hne : f k ≠ f key := fun heq => h (hf hk (hpairs (key, a) (by simp)) heq)
      rw [List.map_cons, lookup_cons_of_ne hne, lookup_cons_of_ne h, hrest]

/-- The place of a new entry depends on the order of the ranks alone. -/
lemma Relabelling.Faithful.insertAt_map {ρ : Relabelling} {ranks : Set Int32}
    {names : Set String} (hρ : ρ.Faithful ranks names) {rank : Int32} (hrank : rank ∈ ranks)
    (new : Entry) {kept : List (Int32 × Entry)} (hkept : ∀ pair ∈ kept, pair.1 ∈ ranks) :
    Registry.insertAt (ρ.rank rank) (ρ.entry new)
        (kept.map fun (rank, e) => (ρ.rank rank, ρ.entry e)) =
      (Registry.insertAt rank new kept).map fun (rank, e) => (ρ.rank rank, ρ.entry e) := by
  induction kept with
  | nil => rfl
  | cons head rest ih =>
    obtain ⟨other, entry⟩ := head
    have hother : other ∈ ranks := hkept (other, entry) List.mem_cons_self
    have hrest := ih fun pair hpair => hkept pair (List.mem_cons_of_mem _ hpair)
    have hlt : ρ.rank rank < ρ.rank other ↔ rank < other := hρ.rank.lt_iff_lt hrank hother
    have heq : ρ.rank rank = ρ.rank other ↔ rank = other := hρ.rank.injOn.eq_iff hrank hother
    simp only [List.map_cons, Registry.insertAt, hlt, heq, hrest]
    split
    · rfl
    · split <;> rfl

namespace Registry.Within

variable {ρ : Relabelling} {r : Registry} {ranks : Set Int32} {names : Set String}
  (hr : r.Within ranks names) (hρ : ρ.Faithful ranks names)
include hr hρ

/-! ### Lookups -/

lemma findAt?_relabel {rank : Int32} (hrank : rank ∈ ranks) :
    (ρ.registry r).findAt? (ρ.rank rank) = (r.findAt? rank).map ρ.entry :=
  lookup_map_of_injOn hρ.rank.injOn ρ.entry hr.keys hrank

lemma lookup_relabel {name : String} (hname : name ∈ names) :
    (ρ.registry r).ranks.lookup (ρ.name name) = (r.ranks.lookup name).map ρ.rank :=
  lookup_map_of_injOn hρ.name ρ.rank (fun pair hpair => (hr.pairs pair hpair).1) hname

lemma find?_relabel {name : String} (hname : name ∈ names) :
    (ρ.registry r).find? (ρ.name name) = (r.find? name).map ρ.entry := by
  rw [find?, hr.lookup_relabel hρ hname, find?]
  cases hlookup : r.ranks.lookup name with
  | none => rfl
  | some rank =>
    have hmem : (name, rank) ∈ r.ranks := by
      obtain ⟨before, after, heq, -⟩ := List.lookup_eq_some_iff.mp hlookup
      rw [heq]
      exact List.mem_append_right _ List.mem_cons_self
    exact hr.findAt?_relabel hρ (hr.pairs _ hmem).2

lemma contains_relabel {name : String} (hname : name ∈ names) :
    (ρ.registry r).contains (ρ.name name) = r.contains name := by
  rw [contains, hr.lookup_relabel hρ hname, Option.isSome_map, contains]

/-! ### Registration -/

lemma mediaOf_relabel {b : Breakpoint} (hb : b.Within ranks names) :
    (ρ.registry r).mediaOf (ρ.breakpoint b) = ρ.result id (r.mediaOf b) := by
  cases hcondition : b.condition with
  | width bound =>
    simp only [mediaOf, Relabelling.breakpoint, Relabelling.condition, hcondition]
    rfl
  | hiDpi =>
    simp only [mediaOf, Relabelling.breakpoint, Relabelling.condition, hcondition]
    rfl
  | pairedHiDpi base =>
    have hbase : base ∈ names := hb.base base (by rw [hcondition]; rfl)
    simp only [mediaOf, Relabelling.breakpoint, Relabelling.condition, hcondition,
      hr.find?_relabel hρ hbase]
    cases r.find? base with
    | none => rfl
    | some e =>
      simp only [Option.map_some, Relabelling.entry]
      cases e.media <;> rfl

lemma add_relabel {new : Entry} (hnew : new.breakpoint.rank ∈ ranks) :
    (ρ.registry r).add (ρ.entry new) = ρ.registry (r.add new) := by
  have hkept := hρ.insertAt_map hnew new hr.keys
  rw [add, Relabelling.registry]
  exact congrArg (Registry.mk _ · _) hkept

lemma register_relabel {b : Breakpoint} (hb : b.Within ranks names) :
    (ρ.registry r).register (ρ.breakpoint b) = ρ.result ρ.registry (r.register b) := by
  have hname : (ρ.breakpoint b).name = ρ.name b.name := rfl
  have hrank : (ρ.breakpoint b).rank = ρ.rank b.rank := rfl
  rw [register, register, hname, hrank, hr.contains_relabel hρ hb.name,
    hr.findAt?_relabel hρ hb.rank, hr.mediaOf_relabel hρ hb]
  cases r.contains b.name with
  | true => rfl
  | false =>
    cases r.findAt? b.rank with
    | some holder => rfl
    | none =>
      cases r.mediaOf b with
      | error e => rfl
      | ok media =>
        have hadd : (ρ.registry r).add (ρ.entry ⟨b, media⟩) = ρ.registry (r.add ⟨b, media⟩) :=
          hr.add_relabel hρ hb.rank
        exact congrArg Except.ok hadd

end Registry.Within

namespace Registry

lemma within_empty {cutoff : Int32} {ranks : Set Int32} (hcutoff : cutoff ∈ ranks)
    (names : Set String) : (empty cutoff).Within ranks names where
  cutoff := hcutoff
  keys := by simp [empty]
  entries := by simp [Registry.entries, empty]
  pairs := by simp [empty]

lemma Within.register {r r' : Registry} {b : Breakpoint} {ranks : Set Int32} {names : Set String}
    (hr : r.Within ranks names) (hb : b.Within ranks names) (h : r.register b = .ok r') :
    r'.Within ranks names := by
  obtain ⟨-, hrank, media, -, rfl⟩ := register_eq_ok_iff.mp h
  constructor
  · exact hr.cutoff
  · intro pair hpair
    rcases (mem_insertAt (findAt?_eq_none_iff.mp hrank)).mp hpair with rfl | hpair
    · exact hb.rank
    · exact hr.keys pair hpair
  · intro e he
    rcases (mem_entries_add hrank).mp he with rfl | he
    · exact hb
    · exact hr.entries e he
  · intro pair hpair
    rcases List.mem_cons.mp hpair with rfl | hpair
    · exact ⟨hb.name, hb.rank⟩
    · exact hr.pairs pair hpair

variable {ranks : Set Int32} {names : Set String}

lemma Within.registerAll {r r' : Registry} (hr : r.Within ranks names) {bs : List Breakpoint}
    (hbs : ∀ b ∈ bs, b.Within ranks names) (h : r.registerAll bs = .ok r') :
    r'.Within ranks names := by
  induction bs using List.reverseRecOn generalizing r' with
  | nil =>
    obtain rfl := Except.ok.inj h
    exact hr
  | append_singleton bs b ih =>
    obtain ⟨next, hnext, hb⟩ := registerAll_append_singleton_eq_ok_iff.mp h
    exact (ih (fun b hb => hbs b (by simp [hb])) hnext).register (hbs b (by simp)) hb

/-- Registration under the new labels comes to what it comes to under the old ones. -/
theorem Within.registerAll_relabel {ρ : Relabelling} (hρ : ρ.Faithful ranks names) {r : Registry}
    (hr : r.Within ranks names) {bs : List Breakpoint} (hbs : ∀ b ∈ bs, b.Within ranks names) :
    (ρ.registry r).registerAll (bs.map ρ.breakpoint) = ρ.result ρ.registry (r.registerAll bs) := by
  induction bs generalizing r with
  | nil => rfl
  | cons b bs ih =>
    have hstep : ∀ (r : Registry) b bs, r.registerAll (b :: bs) =
        (r.register b).bind fun next => next.registerAll bs := fun _ _ _ => rfl
    rw [List.map_cons, hstep, hstep, hr.register_relabel hρ (hbs b (by simp))]
    cases hb : r.register b with
    | error e => rfl
    | ok next =>
      exact ih (hr.register (hbs b (by simp)) hb) fun b hb => hbs b (List.mem_cons_of_mem _ hb)

end Registry
end MediaSheets
