import MediaSheets.Proofs.CompleteReading
import MediaSheets.Proofs.TreeReading
import MediaSheets.Proofs.ValueTexts

/-!
# Malformed documents

An object is malformed where a record of some shape is expected when it has a key that is no
field of the record, or a field twice, or lacks a field that must be given. `Shape.Stands` says
where in a document records are expected, at any depth. A document with a malformed object is
refused, whatever else it contains.
-/

namespace MediaSheets

open Json (Draft Reader Record Tree Value)

/-! ### Shapes -/

/-- What is expected somewhere in a document. -/
inductive Shape
  | config
  | declaration
  | document
  | component
  | rule

namespace Shape

def keys : Shape → List String
  | config => ["cutoff", "breakpoints"]
  | declaration => ["name", "rank", "kind", "width", "paired_with"]
  | document => ["components"]
  | component => ["id", "rules"]
  | rule => ["breakpoint", "css"]

/-- The keys that must be given. -/
def required : Shape → List String
  | config => ["cutoff", "breakpoints"]
  | declaration => ["name", "rank", "kind"]
  | document => []
  | component => ["id"]
  | rule => ["css"]

/-- The key under which other records are listed, and what they are. -/
def listed : Shape → Option (String × Shape)
  | config => some ("breakpoints", declaration)
  | document => some ("components", component)
  | component => some ("rules", rule)
  | declaration | rule => none

/-- An object stands where a record is expected, within a tree where another one is. Records
may also be written as lists of their fields in order. -/
inductive Stands : Shape → Tree → Shape → List (Option String × Tree) → Prop
  | here {shape : Shape} {members : List (Option String × Tree)} :
      Stands shape (.object members) shape members
  | inObject {shape item shape' : Shape} {key : String} {items : List Tree} {tree : Tree}
      {members members' : List (Option String × Tree)} (hlisted : shape.listed = some (key, item))
      (hmember : (some key, .list items) ∈ members) (hitem : tree ∈ items)
      (h : Stands item tree shape' members') : Stands shape (.object members) shape' members'
  | inList {shape item shape' : Shape} {key : String} {i : Nat} {fields items : List Tree}
      {members' : List (Option String × Tree)} {tree : Tree}
      (hlisted : shape.listed = some (key, item)) (hkey : shape.keys[i]? = some key)
      (hfield : fields[i]? = some (.list items)) (hitem : tree ∈ items)
      (h : Stands item tree shape' members') : Stands shape (.list fields) shape' members'

/-- What may be wrong with an object where a record is expected. -/
inductive Malformed (shape : Shape) (members : List (Option String × Tree)) : Prop
  | unknownKey {m : Option String × Tree} (hm : m ∈ members)
      (hkey : ∀ key ∈ shape.keys, m.1 ≠ some key)
  | repeatedKey {key : String} (hkey : key ∈ shape.keys)
      (hcount : 2 ≤ (members.map (·.1)).count (some key))
  | missingKey {key : String} (hkey : key ∈ shape.required)
      (hmissing : some key ∉ members.map (·.1))

/-! ### Records -/

/-- What is read where a record is expected. -/
def Data : Shape → Type
  | config => Config
  | declaration => Declaration
  | document => SourceDocument
  | component => Component
  | rule => Rule

def record : (shape : Shape) → Record shape.Data
  | config => Config.record
  | declaration => Declaration.record
  | document => SourceDocument.record
  | component => Component.record
  | rule => Rule.record

lemma keys_record (shape : Shape) : shape.record.keys = shape.keys := by
  cases shape <;> rfl

lemma required_record (shape : Shape) :
    (shape.record.fields.filter (·.required)).map (·.key) = shape.required := by
  cases shape <;> rfl

/-- Records are read from where they are listed. -/
lemma exists_list_of_listed {shape item : Shape} {key : String}
    (hlisted : shape.listed = some (key, item)) {field : Json.Field shape.Data}
    (hfield : field ∈ shape.record.fields) (hkey : field.key = key) {draft : Draft}
    {fill : shape.Data → shape.Data} (h : field.read draft = .ok fill) :
    ∃ values, Reader.list item.record.read draft = .ok values := by
  cases shape with
  | config =>
    obtain ⟨rfl, rfl⟩ := Prod.mk.inj (Option.some.inj hlisted)
    rcases List.mem_pair.mp hfield with rfl | rfl
    · contradiction
    · obtain ⟨values, hvalues, -⟩ := map_eq_ok_iff.mp h
      exact ⟨values, hvalues⟩
  | document =>
    obtain ⟨rfl, rfl⟩ := Prod.mk.inj (Option.some.inj hlisted)
    obtain rfl := List.mem_singleton.mp hfield
    obtain ⟨values, hvalues, -⟩ := map_eq_ok_iff.mp h
    exact ⟨values, hvalues⟩
  | component =>
    obtain ⟨rfl, rfl⟩ := Prod.mk.inj (Option.some.inj hlisted)
    rcases List.mem_pair.mp hfield with rfl | rfl
    · contradiction
    · obtain ⟨values, hvalues, -⟩ := map_eq_ok_iff.mp h
      exact ⟨values, hvalues⟩
  | declaration => contradiction
  | rule => contradiction

end Shape

/-! ### Nothing malformed is read -/

namespace Shape

variable {shape : Shape}

lemma not_malformed_of_read {members : List (Option String × Tree)} {value : shape.Data}
    (h : shape.record.read (Tree.object members).draft = .ok value) :
    ¬shape.Malformed members := by
  obtain ⟨entries, rfl, hsuits⟩ := Json.exists_suits_of_read h
  intro hmalformed
  cases hmalformed with
  | unknownKey hm hkey =>
    obtain ⟨e, he, rfl⟩ := List.mem_map.mp hm
    obtain ⟨field, hfield, hfieldKey, -⟩ := hsuits.known _ (List.mem_map_of_mem he)
    apply hkey e.1 _ rfl
    rw [← keys_record, ← hfieldKey]
    exact List.mem_map_of_mem hfield
  | @repeatedKey key _ hcount =>
    have hnodup := hsuits.nodup
    rw [List.map_map] at hcount hnodup
    have hkeys : (entries.map fun e => some e.1).Nodup := by
      have h := hnodup.map (Option.some_injective String)
      rwa [List.map_map] at h
    have hle := List.nodup_iff_count_le_one.mp hkeys (some key)
    exact absurd (hcount.trans hle) (by decide)
  | missingKey hkey hmissing =>
    rw [← required_record] at hkey
    obtain ⟨field, hfield, rfl⟩ := List.mem_map.mp hkey
    obtain ⟨hmem, hrequired⟩ := List.mem_filter.mp hfield
    have h := hsuits.complete field hmem hrequired
    apply hmissing
    simpa using h

/-- Whatever record stands in a tree that is read, it is read too. -/
lemma exists_read_of_stands {shape' : Shape} {tree : Tree}
    {members : List (Option String × Tree)} (hstands : shape.Stands tree shape' members)
    (h : ∃ value, shape.record.read tree.draft = .ok value) :
    ∃ value, shape'.record.read (Tree.object members).draft = .ok value := by
  induction hstands with
  | here => exact h
  | inObject hlisted hmember hitem _ ih =>
    obtain ⟨value, hvalue⟩ := h
    obtain ⟨field, fill, hfield, hfill⟩ := Json.read_of_member hvalue hmember
    obtain ⟨hmem, hfieldKey⟩ := Json.mem_of_find?_key hfield
    obtain ⟨values, hvalues⟩ := exists_list_of_listed hlisted hmem hfieldKey hfill
    exact ih (Json.read_of_readAll hvalues _ hitem)
  | inList hlisted hkey hfield hitem _ ih =>
    obtain ⟨value, hvalue⟩ := h
    rw [← keys_record, Record.keys, List.getElem?_map, Option.map_eq_some_iff] at hkey
    obtain ⟨field, hfield', hfieldKey⟩ := hkey
    obtain ⟨fill, hfill⟩ := Json.read_of_readItems hvalue hfield' hfield
    obtain ⟨values, hvalues⟩ := exists_list_of_listed hlisted (List.mem_of_getElem? hfield')
      hfieldKey hfill
    exact ih (Json.read_of_readAll hvalues _ hitem)

lemma ofText_eq_error_of_stands (shape : Shape) {shape' : Shape} {tree : Tree} {text : String}
    {members : List (Option String × Tree)} (htakesAll : Reader.TakesAll shape.record.read)
    (htext : tree.WrittenIn text) (hstands : shape.Stands tree shape' members)
    (hmalformed : shape'.Malformed members) :
    ∃ fault, Reader.ofText shape.record.read text = .error fault := by
  cases h : Reader.ofText shape.record.read text with
  | error fault => exact ⟨fault, rfl⟩
  | ok value =>
    obtain ⟨hwhole, hread⟩ := htakesAll.of_ofText h
    rw [Json.Document.root_of_writtenIn htext hwhole] at hread
    obtain ⟨value', hvalue'⟩ := exists_read_of_stands hstands ⟨value, hread⟩
    exact absurd hmalformed (not_malformed_of_read hvalue')

end Shape

/-- A document is refused when a malformed object stands in it where a record is expected. -/
theorem malformed_documents_refused {tree : Tree} {text : String} {shape : Shape}
    {members : List (Option String × Tree)} (htext : tree.WrittenIn text)
    (hmalformed : shape.Malformed members) :
    (Shape.config.Stands tree shape members →
        ∃ reason, Config.ofJson text = .error (.unreadable reason)) ∧
      (Shape.document.Stands tree shape members →
        ∃ reason, SourceDocument.ofJson text = .error (.unreadable reason)) := by
  constructor
  · intro hstands
    obtain ⟨fault, h⟩ :=
      Shape.config.ofText_eq_error_of_stands Config.takesAll htext hstands hmalformed
    exact ⟨fault.message, congrArg _ h⟩
  · intro hstands
    obtain ⟨fault, h⟩ :=
      Shape.document.ofText_eq_error_of_stands SourceDocument.takesAll htext hstands hmalformed
    exact ⟨fault.message, congrArg _ h⟩

/-- The key of the last rule is misspelt. -/
def misspelt : Value :=
  .object [("components", .list [.object [("id", .text "nav")],
    .object [("rules", .list [.object [("css", .text "a")],
      .object [("css", .text "b"), ("breakpiont", .text "wide")]]), ("id", .text "card")]])]

/-- The rank of the second declaration is given twice. -/
def repeated : Value :=
  .object [("breakpoints", .list [.object [("name", .text "dense"), ("rank", .integer 1),
    ("kind", .text "hi-dpi")], .object [("rank", .integer 2), ("name", .text "dense2x"),
      ("kind", .text "hi-dpi"), ("rank", .integer 2)]]), ("cutoff", .integer 0)]

/-- Neither text is read, though everything else in it is as it should be. -/
theorem misspelt_and_repeated_refused :
    (∃ reason, SourceDocument.ofJson misspelt.compact = .error (.unreadable reason)) ∧
      ∃ reason, Config.ofJson repeated.compact = .error (.unreadable reason) := by
  have hrule : Shape.rule.Malformed (Json.memberTrees
      [("css", .text "b"), ("breakpiont", .text "wide")]) :=
    .unknownKey (List.mem_cons_of_mem _ List.mem_cons_self) (by decide)
  have hdeclaration : Shape.declaration.Malformed (Json.memberTrees [("rank", .integer 2),
      ("name", .text "dense2x"), ("kind", .text "hi-dpi"), ("rank", .integer 2)]) :=
    @Shape.Malformed.repeatedKey _ _ "rank" (by decide) (by decide)
  have hmisspelt : Shape.document.Stands misspelt.tree .rule _ :=
    .inObject rfl List.mem_cons_self (List.mem_cons_of_mem _ List.mem_cons_self)
      (.inObject rfl List.mem_cons_self (List.mem_cons_of_mem _ List.mem_cons_self) .here)
  have hrepeated : Shape.config.Stands repeated.tree .declaration _ :=
    .inObject rfl List.mem_cons_self (List.mem_cons_of_mem _ List.mem_cons_self) .here
  exact ⟨(malformed_documents_refused misspelt.writtenIn_compact hrule).2 hmisspelt,
    (malformed_documents_refused repeated.writtenIn_compact hdeclaration).1 hrepeated⟩

end MediaSheets
