import MediaSheets.Json.Reader
import MediaSheets.Proofs.FirstFailure
import Mathlib.Data.List.Nodup
import Mathlib.Data.List.Pairwise

/-!
# Records that are read

When a record is read from an object, `Record.Suits` holds of the entries of the object: each
of them has the key of a field, which reads its value, no key comes twice, and no field that
is required is missing. In which order the entries come makes no difference where the fields
are filled in independently of each other.
-/

namespace MediaSheets.Json

/-- The members of an object that does not break off. -/
def Members.ofEntries : List (String × Draft) → Members
  | [] => .done
  | (key, draft) :: entries => .more key draft (ofEntries entries)

/-- The entries of an object are those of the record, each of them once. -/
structure Record.Suits (r : Record σ) (entries : List (String × Draft)) : Prop where
  known : ∀ e ∈ entries, ∃ field ∈ r.fields, field.key = e.1 ∧ ∃ fill, field.read e.2 = .ok fill
  nodup : (entries.map (·.1)).Nodup
  complete : ∀ field ∈ r.fields, field.required = true → field.key ∈ entries.map (·.1)

/-- It makes no difference which of two fields is filled in first. -/
def Field.Independent (field field' : Field σ) : Prop :=
  ∀ draft draft' fill fill', field.read draft = .ok fill → field'.read draft' = .ok fill' →
    ∀ value, fill (fill' value) = fill' (fill value)

def Record.Orderless (r : Record σ) : Prop := r.fields.Pairwise Field.Independent

variable {r : Record σ}

/-! ### One entry after another -/

lemma readMembers_more_eq_ok_iff {key : String} {draft : Draft} {rest : Members}
    {seen : List String} {start value : σ} :
    r.readMembers (.more key draft rest) seen start = .ok value ↔
      ∃ field fill, r.fields.find? (fun field => field.key == key) = some field ∧
        key ∉ seen ∧ field.read draft = .ok fill ∧
          r.readMembers rest (key :: seen) (fill start) = .ok value := by
  rw [Record.readMembers]
  cases hfield : r.fields.find? fun field => field.key == key with
  | none => simp
  | some field =>
    by_cases hseen : key ∈ seen
    · simp [hseen]
    · simp [hseen, bind_eq_ok_iff]

lemma readMembers_done_eq_ok_iff {seen : List String} {start value : σ} :
    r.readMembers .done seen start = .ok value ↔
      (∀ field ∈ r.fields, field.required = true → field.key ∈ seen) ∧ start = value := by
  have hmissing : r.fields.find? (fun field => field.required && !seen.contains field.key) = none ↔
      ∀ field ∈ r.fields, field.required = true → field.key ∈ seen := by
    simp [List.find?_eq_none]
  rw [Record.readMembers, ← hmissing]
  cases r.fields.find? fun field => field.required && !seen.contains field.key with
  | none => simp
  | some field => simp

lemma mem_of_find?_key {key : String} {field : Field σ}
    (h : r.fields.find? (fun field => field.key == key) = some field) :
    field ∈ r.fields ∧ field.key = key :=
  ⟨List.mem_of_find?_eq_some h, by simpa using List.find?_some h⟩

/-! ### What is read suits the record -/

lemma suits_of_readMembers {entries : List (String × Draft)} {seen : List String} {start value : σ}
    (h : r.readMembers (.ofEntries entries) seen start = .ok value) :
    (∀ e ∈ entries, ∃ field ∈ r.fields, field.key = e.1 ∧ ∃ fill, field.read e.2 = .ok fill) ∧
      (entries.map (·.1)).Nodup ∧ (∀ key ∈ seen, key ∉ entries.map (·.1)) ∧
      ∀ field ∈ r.fields, field.required = true →
        field.key ∈ seen ∨ field.key ∈ entries.map (·.1) := by
  induction entries generalizing seen start with
  | nil =>
    obtain ⟨hcomplete, -⟩ := readMembers_done_eq_ok_iff.mp h
    simpa using hcomplete
  | cons e entries ih =>
    obtain ⟨field, fill, hfield, hseen, hread, hrest⟩ := readMembers_more_eq_ok_iff.mp h
    obtain ⟨hknown, hnodup, hapart, hcomplete⟩ := ih hrest
    obtain ⟨hmem, hkey⟩ := mem_of_find?_key hfield
    rw [List.map_cons]
    refine ⟨?_, List.nodup_cons.mpr ⟨hapart e.1 List.mem_cons_self, hnodup⟩, ?_, ?_⟩
    · rintro e' he'
      rcases List.mem_cons.mp he' with rfl | he'
      · exact ⟨field, hmem, hkey, fill, hread⟩
      · exact hknown e' he'
    · intro key hmem'
      rw [List.mem_cons, not_or]
      exact ⟨fun heq => hseen (heq ▸ hmem'), hapart key (List.mem_cons_of_mem _ hmem')⟩
    · intro field' hmem' hrequired
      rcases hcomplete field' hmem' hrequired with hseen' | hlater
      · rcases List.mem_cons.mp hseen' with heq | hseen'
        · exact .inr (heq ▸ List.mem_cons_self)
        · exact .inl hseen'
      · exact .inr (List.mem_cons_of_mem _ hlater)

/-- A record is read from an object only if the entries suit it. -/
theorem Record.suits_of_read {entries : List (String × Draft)} {value : σ}
    (h : r.read (.object (.ofEntries entries)) = .ok value) : r.Suits entries := by
  obtain ⟨hknown, hnodup, -, hcomplete⟩ := suits_of_readMembers h
  exact ⟨hknown, hnodup, fun field hmem hrequired => by simpa using hcomplete field hmem hrequired⟩

/-! ### The order of the entries -/

instance : Std.Symm (@Field.Independent σ) where
  symm _ _ h _ _ _ _ hread hread' value := (h _ _ _ _ hread' hread value).symm

/-- Fields are independent when their ways of filling in are. -/
lemma independent_of_fill {α β : Type} {key key' : String} {required required' : Bool}
    {read : Reader α} {read' : Reader β} {fill : α → σ → σ} {fill' : β → σ → σ}
    (h : ∀ a b value, fill a (fill' b value) = fill' b (fill a value)) :
    Field.Independent ⟨key, required, fun draft => (read draft).map fill⟩
      ⟨key', required', fun draft => (read' draft).map fill'⟩ := by
  intro draft draft' filled filled' hread hread' value
  obtain ⟨a, -, rfl⟩ := map_eq_ok_iff.mp hread
  obtain ⟨b, -, rfl⟩ := map_eq_ok_iff.mp hread'
  exact h a b value

/-- Only which keys were seen matters. -/
lemma readMembers_congr {entries : List (String × Draft)} {seen seen' : List String}
    (hseen : ∀ key, key ∈ seen ↔ key ∈ seen') (start : σ) :
    r.readMembers (.ofEntries entries) seen start =
      r.readMembers (.ofEntries entries) seen' start := by
  induction entries generalizing seen seen' start with
  | nil => simp [Members.ofEntries, Record.readMembers, hseen]
  | cons e entries ih =>
    have hcons : ∀ key, key ∈ e.1 :: seen ↔ key ∈ e.1 :: seen' := by simp [hseen]
    have hrest := ih hcons
    simp only [Members.ofEntries, Record.readMembers, List.contains_eq_mem, hseen, hrest]

lemma readMembers_perm (hr : r.Orderless) {entries entries' : List (String × Draft)}
    (hperm : entries.Perm entries') {seen : List String} {start value : σ}
    (h : r.readMembers (.ofEntries entries) seen start = .ok value) :
    r.readMembers (.ofEntries entries') seen start = .ok value := by
  induction hperm generalizing seen start with
  | nil => exact h
  | cons e _ ih =>
    obtain ⟨field, fill, hfield, hseen, hread, hrest⟩ := readMembers_more_eq_ok_iff.mp h
    exact readMembers_more_eq_ok_iff.mpr ⟨field, fill, hfield, hseen, hread, ih hrest⟩
  | swap e e' entries =>
    obtain ⟨field', fill', hfield', hseen', hread', h⟩ := readMembers_more_eq_ok_iff.mp h
    obtain ⟨field, fill, hfield, hseen, hread, hrest⟩ := readMembers_more_eq_ok_iff.mp h
    obtain ⟨hmem, hkey⟩ := mem_of_find?_key hfield
    obtain ⟨hmem', hkey'⟩ := mem_of_find?_key hfield'
    rw [List.mem_cons, not_or] at hseen
    have hne : field ≠ field' := fun heq => hseen.1 (by rw [← hkey, ← hkey', heq])
    have hindependent := hr.forall hmem hmem' hne
    have hswap : ∀ key, key ∈ e.1 :: e'.1 :: seen ↔ key ∈ e'.1 :: e.1 :: seen := by
      simp [or_left_comm]
    rw [hindependent _ _ _ _ hread hread' start, readMembers_congr hswap] at hrest
    refine readMembers_more_eq_ok_iff.mpr ⟨field, fill, hfield, hseen.2, hread, ?_⟩
    refine readMembers_more_eq_ok_iff.mpr ⟨field', fill', hfield', ?_, hread', hrest⟩
    rw [List.mem_cons, not_or]
    exact ⟨Ne.symm hseen.1, hseen'⟩
  | trans _ _ ih ih' => exact ih' (ih h)

/-- A record reads the same from an object in whatever order the entries come. -/
theorem Record.read_perm (hr : r.Orderless) {entries entries' : List (String × Draft)}
    (hperm : entries.Perm entries') {value : σ}
    (h : r.read (.object (.ofEntries entries)) = .ok value) :
    r.read (.object (.ofEntries entries')) = .ok value :=
  readMembers_perm hr hperm h

end MediaSheets.Json
