import MediaSheets.Config.Json
import MediaSheets.Proofs.ReadValues
import MediaSheets.Source.Json

/-!
# Documents read back

`ReadsBack` ties a writer to its reader: what the one writes, the other takes back as it was. It
holds of the scalars and passes from the parts of a document to the whole, so configurations and
source documents come back from their texts unchanged.
-/

namespace MediaSheets

namespace Json

/-- What is written stays within `depth` more levels and is read as what was written. -/
structure ReadsBack (depth : Nat) (write : α → Value) (read : Reader α) : Prop where
  fits : ∀ a, (write a).Fits depth
  read : ∀ a, read (write a).draft = .ok a

variable {depth : Nat} {write : α → Value} {read : Reader α}

/-! ### Whole texts -/

lemma ReadsBack.ofText_compact (h : ReadsBack maxDepth write read) (a : α) :
    read.ofText (write a).compact = .ok a := by
  rw [Reader.ofText_of_spells (h.fits a) (spells_compact (h.fits a)), h.read]

lemma ReadsBack.ofText_pretty (h : ReadsBack maxDepth write read) (a : α) :
    read.ofText (write a).pretty = .ok a := by
  rw [Reader.ofText_of_spells (h.fits a) (spells_pretty (h.fits a)), h.read]

/-! ### Scalars and lists -/

lemma int32?_toInt (n : Int32) : int32? n.toInt = some n := by
  have hle := n.le_toInt
  have hlt := n.toInt_lt
  rw [int32?, if_pos (by constructor <;> omega), Int32.ofInt_toInt]

lemma exact_toInt (n : Int32) : Exact n.toInt := by
  have hle := n.le_toInt
  have hlt := n.toInt_lt
  constructor <;> omega

lemma readsBack_int32 : ReadsBack depth (fun n : Int32 => .integer n.toInt) Reader.int32 where
  fits := fun n => .integer (exact_toInt n)
  read := fun n => by rw [Value.draft, Reader.int32, int32?_toInt]

lemma uint32?_toNat (n : UInt32) : uint32? n.toNat = some n := by
  have hlt := n.toNat_lt
  rw [uint32?, if_pos (by constructor <;> omega), Int.toNat_natCast, UInt32.ofNat_toNat]

lemma exact_toNat (n : UInt32) : Exact n.toNat := by
  have hlt := n.toNat_lt
  constructor <;> omega

lemma readsBack_uint32 : ReadsBack depth (fun n : UInt32 => .integer n.toNat) Reader.uint32 where
  fits := fun n => .integer (exact_toNat n)
  read := fun n => by rw [Value.draft, Reader.uint32, uint32?_toNat]

lemma ReadsBack.readAll (h : ReadsBack depth write read) (as : List α) :
    (draftItems (as.map write)).readAll read = .ok as := by
  induction as with
  | nil => rfl
  | cons a as ih =>
    rw [List.map_cons, draftItems, Items.readAll, h.read, ih]
    rfl

lemma ReadsBack.list (h : ReadsBack depth write read) :
    ReadsBack (depth + 1) (fun as => .list (as.map write)) (.list read) where
  fits := by
    refine fun as => .list fun item hitem => ?_
    obtain ⟨a, -, rfl⟩ := List.mem_map.mp hitem
    exact h.fits a
  read := h.readAll

lemma nullable_of_ne_null {v : Value} (hv : v ≠ .null) {a : α} (h : read v.draft = .ok a) :
    Reader.nullable read v.draft = .ok (some a) := by
  cases v <;> first | exact absurd rfl hv | exact congrArg (Except.map some) h

lemma variant_object {variants : List (String × Variant α)} {name : String} {variant : Variant α}
    (h : variants.lookup name = some variant) (draft : Draft) :
    Reader.variant variants (.object (.more name draft .done)) = variant.read draft := by
  simp only [Reader.variant, h, Members.closeVariant]
  cases variant.read draft <;> rfl

/-- A member under the key of a field that was not met yet is filled in. -/
lemma readMembers_more {r : Record σ} {key : String} {field : Field σ} {seen : List String}
    {draft : Draft} {fill : σ → σ} (hfield : r.fields.find? (fun f => f.key == key) = some field)
    (hseen : seen.contains key = false) (hfill : field.read draft = .ok fill) {rest : Members}
    {value : σ} :
    r.readMembers (.more key draft rest) seen value =
      r.readMembers rest (key :: seen) (fill value) := by
  rw [Record.readMembers, hfield]
  simp only [hseen, hfill]
  rfl

end Json

open Json (readMembers_more Reader ReadsBack Value)

variable {depth : Nat}

/-! ### Configurations -/

lemma WidthBound.readsBack : ReadsBack (depth + 1) WidthBound.toJson WidthBound.read where
  fits := by
    intro bound
    cases bound with
    | atLeast px => exact .object (by simpa using Json.readsBack_uint32.fits px)
    | atMost px => exact .object (by simpa using Json.readsBack_uint32.fits px)
  read := by
    have hpx : ∀ px : UInt32, Reader.uint32 (Value.integer px.toNat).draft = .ok px :=
      (@Json.readsBack_uint32 0).read
    intro bound
    cases bound with
    | atLeast px =>
      rw [WidthBound.toJson, Value.draft, Json.draftMembers, Json.draftMembers,
        WidthBound.read, Json.variant_object rfl, Json.Variant.read, hpx, Except.map]
    | atMost px =>
      rw [WidthBound.toJson, Value.draft, Json.draftMembers, Json.draftMembers,
        WidthBound.read, Json.variant_object rfl, Json.Variant.read, hpx, Except.map]

lemma Kind.readsBack : ReadsBack depth (fun kind => .text kind.name) Kind.read where
  fits := fun _ => .text
  read := fun kind => by cases kind <;> rfl

lemma Cutoff.readsBack : ReadsBack depth Cutoff.toJson Cutoff.read where
  fits := by
    intro cutoff
    cases cutoff with
    | atRank rank => exact Json.readsBack_int32.fits rank
    | atBreakpoint name => exact .text
  read := by
    intro cutoff
    cases cutoff with
    | atRank rank =>
      have hrank := Json.int32?_toInt rank
      simp [Cutoff.toJson, Value.draft, Cutoff.read, Json.Draft.fault?, Cutoff.ofWhole?, hrank]
    | atBreakpoint name => rfl

lemma Declaration.fits_toJson (d : Declaration) : d.toJson.Fits (depth + 2) := by
  refine .object fun member hmember => ?_
  simp only [List.mem_append, List.mem_cons, List.not_mem_nil, or_false, Option.mem_toList,
    Option.map_eq_some_iff] at hmember
  rcases hmember with ((rfl | rfl | rfl) | ⟨bound, -, rfl⟩) | ⟨base, -, rfl⟩
  · exact .text
  · exact Json.readsBack_int32.fits d.rank
  · exact .text
  · exact WidthBound.readsBack.fits bound
  · exact .text

lemma Declaration.read_toJson (d : Declaration) :
    Declaration.record.read d.toJson.draft = .ok d := by
  obtain ⟨name, rank, kind, width, pairedWith⟩ := d
  have hrank := (@Json.readsBack_int32 0).read rank
  have hkind := (@Kind.readsBack 0).read kind
  rw [Declaration.toJson, Value.draft, Json.Record.read]
  simp only [List.cons_append, List.nil_append, Json.draftMembers]
  rw [readMembers_more rfl rfl rfl, readMembers_more rfl rfl (congrArg (Except.map _) hrank),
    readMembers_more rfl rfl (congrArg (Except.map _) hkind)]
  -- fields that were left out are not looked for
  cases width with
  | none => cases pairedWith <;> rfl
  | some bound =>
    have hwidth := Json.nullable_of_ne_null (by cases bound <;> simp [WidthBound.toJson])
      ((@WidthBound.readsBack 0).read bound)
    simp only [Option.map_some, Option.toList, List.cons_append, List.nil_append, Json.draftMembers]
    rw [readMembers_more rfl rfl (congrArg (Except.map _) hwidth)]
    cases pairedWith <;> rfl

lemma Declaration.readsBack :
    ReadsBack (depth + 2) Declaration.toJson Declaration.record.read where
  fits := fits_toJson
  read := read_toJson

lemma Config.readsBack : ReadsBack (depth + 4) Config.toValue Config.record.read where
  fits := by
    intro c
    have hcutoff := (@Cutoff.readsBack (depth + 3)).fits c.cutoff
    have hbreakpoints := (@Declaration.readsBack depth).list.fits c.breakpoints
    exact .object (by simp [hcutoff, hbreakpoints])
  read := by
    intro c
    have hcutoff := (@Cutoff.readsBack 0).read c.cutoff
    have hbreakpoints := (@Declaration.readsBack 0).list.read c.breakpoints
    rw [Config.toValue, Value.draft, Json.Record.read]
    simp only [Json.draftMembers]
    rw [readMembers_more rfl rfl (congrArg (Except.map _) hcutoff),
      readMembers_more rfl rfl (congrArg (Except.map _) hbreakpoints)]
    rfl

/-! ### Source documents -/

lemma Target.readsBack : ReadsBack depth Target.toJson Target.read where
  fits := by
    intro target
    cases target with
    | universal => exact .null
    | breakpoint name => exact .text
  read := fun target => by cases target <;> rfl

lemma Rule.readsBack : ReadsBack (depth + 1) Rule.toJson Rule.record.read where
  fits := by
    intro r
    have htarget := (@Target.readsBack depth).fits r.target
    exact .object (by simp [htarget, Value.Fits.text])
  read := by
    intro r
    have htarget := (@Target.readsBack 0).read r.target
    rw [Rule.toJson, Value.draft, Json.Record.read]
    simp only [Json.draftMembers]
    rw [readMembers_more rfl rfl (congrArg (Except.map _) htarget)]
    rfl

lemma Component.readsBack : ReadsBack (depth + 3) Component.toJson Component.record.read where
  fits := by
    intro c
    have hrules := (@Rule.readsBack depth).list.fits c.rules
    exact .object (by simp [hrules, Value.Fits.text])
  read := by
    intro c
    have hrules := (@Rule.readsBack 0).list.read c.rules
    rw [Component.toJson, Value.draft, Json.Record.read]
    simp only [Json.draftMembers]
    rw [readMembers_more rfl rfl rfl, readMembers_more rfl rfl (congrArg (Except.map _) hrules)]
    rfl

lemma SourceDocument.readsBack :
    ReadsBack (depth + 5) SourceDocument.toValue SourceDocument.record.read where
  fits := by
    intro d
    have hcomponents := (@Component.readsBack depth).list.fits d.components
    exact .object (by simp [hcomponents])
  read := by
    intro d
    have hcomponents := (@Component.readsBack 0).list.read d.components
    rw [SourceDocument.toValue, Value.draft, Json.Record.read]
    simp only [Json.draftMembers]
    rw [readMembers_more rfl rfl (congrArg (Except.map _) hcomponents)]
    rfl

/-- Every configuration and every source document is read back from its own text. -/
theorem documents_read_back (c : Config) (d : SourceDocument) :
    Config.ofJson c.toJson = .ok c ∧ SourceDocument.ofJson d.toJson = .ok d := by
  constructor
  · rw [Config.ofJson, Config.toJson, Config.readsBack.ofText_pretty]
    rfl
  · rw [SourceDocument.ofJson, SourceDocument.toJson, SourceDocument.readsBack.ofText_compact]
    rfl

end MediaSheets
