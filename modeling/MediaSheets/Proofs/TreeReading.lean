import MediaSheets.Proofs.GrammarDrafts
import MediaSheets.Proofs.RecordReading

/-!
# Trees that are read

What is read of a tree, is read of everything in it: of the members of an object by the fields
with their keys, of the items of a list one by one, or by the fields in their order.
-/

namespace MediaSheets.Json

variable {r : Record σ} {value : σ}

/-! ### Objects -/

/-- Every key of an object that is read is a text. -/
lemma exists_entries_of_readMembers {members : List (Option String × Tree)} {seen : List String}
    {start : σ} (h : r.readMembers (treeMembers members) seen start = .ok value) :
    ∃ entries : List (String × Tree), members = entries.map fun e => (some e.1, e.2) := by
  induction members generalizing seen start with
  | nil => exact ⟨[], rfl⟩
  | cons m members ih =>
    obtain ⟨_ | key, tree⟩ := m
    · contradiction
    · obtain ⟨field, fill, -, -, -, hrest⟩ := readMembers_more_eq_ok_iff.mp h
      obtain ⟨entries, rfl⟩ := ih hrest
      exact ⟨(key, tree) :: entries, rfl⟩

lemma treeMembers_map_some (entries : List (String × Tree)) :
    treeMembers (entries.map fun e => (some e.1, e.2)) =
      .ofEntries (entries.map fun e => (e.1, e.2.draft)) := by
  induction entries with
  | nil => rfl
  | cons e entries ih => rw [List.map_cons, treeMembers, ih, List.map_cons, Members.ofEntries]

/-- The members of an object from which a record is read suit the record. -/
lemma exists_suits_of_read {members : List (Option String × Tree)}
    (h : r.read (Tree.object members).draft = .ok value) :
    ∃ entries : List (String × Tree), members = entries.map (fun e => (some e.1, e.2)) ∧
      r.Suits (entries.map fun e => (e.1, e.2.draft)) := by
  obtain ⟨entries, rfl⟩ := exists_entries_of_readMembers h
  rw [Tree.draft, treeMembers_map_some] at h
  exact ⟨entries, rfl, r.suits_of_read h⟩

lemma read_of_readMembers {members : List (Option String × Tree)} {seen : List String} {start : σ}
    (h : r.readMembers (treeMembers members) seen start = .ok value) {key : String} {tree : Tree}
    (hmember : (some key, tree) ∈ members) :
    ∃ field fill, r.fields.find? (fun field => field.key == key) = some field ∧
      field.read tree.draft = .ok fill := by
  induction members generalizing seen start with
  | nil => simp at hmember
  | cons m members ih =>
    obtain ⟨_ | key', tree'⟩ := m
    · contradiction
    · obtain ⟨field, fill, hfield, -, hfill, hrest⟩ := readMembers_more_eq_ok_iff.mp h
      rcases List.mem_cons.mp hmember with heq | hmember
      · obtain ⟨hkey, rfl⟩ := Prod.mk.inj heq
        obtain rfl := Option.some.inj hkey
        exact ⟨field, fill, hfield, hfill⟩
      · exact ih hrest hmember

/-- A member of an object is read by the field with its key. -/
lemma read_of_member {members : List (Option String × Tree)}
    (h : r.read (Tree.object members).draft = .ok value) {key : String} {tree : Tree}
    (hmember : (some key, tree) ∈ members) :
    ∃ field fill, r.fields.find? (fun field => field.key == key) = some field ∧
      field.read tree.draft = .ok fill :=
  read_of_readMembers h hmember

/-! ### Lists -/

/-- In a list that holds a record, an item is read by the field in its place. -/
lemma read_of_readItems {fields : List (Field σ)} {items : List Tree} {start : σ}
    (h : r.readItems fields (treeItems items) start = .ok value) {i : Nat} {field : Field σ}
    {tree : Tree} (hfield : fields[i]? = some field) (hitem : items[i]? = some tree) :
    ∃ fill, field.read tree.draft = .ok fill := by
  induction fields generalizing items start i with
  | nil => simp at hfield
  | cons first fields ih =>
    cases items with
    | nil => simp at hitem
    | cons item items =>
      obtain ⟨fill, hfill, hrest⟩ := bind_eq_ok_iff.mp h
      cases i with
      | zero =>
        rw [List.getElem?_cons_zero, Option.some_inj] at hfield hitem
        exact ⟨fill, hfield ▸ hitem ▸ hfill⟩
      | succ i =>
        rw [List.getElem?_cons_succ] at hfield hitem
        exact ih hrest hfield hitem

lemma read_of_readAll {read : Reader α} {items : List Tree} {values : List α}
    (h : (treeItems items).readAll read = .ok values) :
    ∀ tree ∈ items, ∃ a, read tree.draft = .ok a := by
  induction items generalizing values with
  | nil => simp
  | cons item items ih =>
    obtain ⟨a, ha, h⟩ := bind_eq_ok_iff.mp h
    obtain ⟨rest, hrest, -⟩ := bind_eq_ok_iff.mp h
    exact List.forall_mem_cons.mpr ⟨⟨a, ha⟩, ih hrest⟩

end MediaSheets.Json
