import MediaSheets.Config.Json
import MediaSheets.Proofs.RecordReading
import MediaSheets.Source.Json

/-!
# Readers that pass nothing over

`Reader.TakesAll` holds of a reader that gives a value only for drafts that do not break off.
It holds of the scalars and passes from the parts of a document to the whole, as nothing is
skipped in between. A document that is read is therefore read to its end.
-/

namespace MediaSheets

namespace Json

/-- What is read does not break off. -/
def Reader.TakesAll (read : Reader α) : Prop := ∀ draft a, read draft = .ok a → draft.fault? = none

/-! ### Scalars -/

lemma takesAll_text : Reader.text.TakesAll := by
  intro draft a h
  cases draft <;> first | rfl | contradiction

lemma takesAll_unit : Reader.unit.TakesAll := by
  intro draft a h
  cases draft <;> first | rfl | contradiction

lemma takesAll_int32 : Reader.int32.TakesAll := by
  intro draft a h
  cases draft <;> first | rfl | contradiction

lemma takesAll_uint32 : Reader.uint32.TakesAll := by
  intro draft a h
  cases draft <;> first | rfl | contradiction

lemma Reader.TakesAll.nullable {read : Reader α} (hread : read.TakesAll) :
    (Reader.nullable read).TakesAll := by
  intro draft a h
  unfold Reader.nullable at h
  split at h
  next => rfl
  next => contradiction
  next =>
    obtain ⟨value, hvalue, -⟩ := map_eq_ok_iff.mp h
    exact hread _ _ hvalue

lemma Reader.TakesAll.map {read : Reader α} (hread : read.TakesAll) (f : α → β) :
    Reader.TakesAll fun draft => (read draft).map f := by
  intro draft b h
  obtain ⟨a, ha, -⟩ := map_eq_ok_iff.mp h
  exact hread draft a ha

/-! ### Lists and variants -/

lemma Reader.TakesAll.list {read : Reader α} (hread : read.TakesAll) :
    (Reader.list read).TakesAll := by
  have hitems : ∀ items values, Items.readAll read items = .ok values → items.fault? = none := by
    intro items
    induction items using Items.readAll.induct with
    | case1 => exact fun _ _ => rfl
    | case2 fault => exact fun _ h => nomatch h
    | case3 item rest ih =>
      intro values h
      obtain ⟨value, hvalue, h⟩ := bind_eq_ok_iff.mp h
      obtain ⟨values, hvalues, -⟩ := bind_eq_ok_iff.mp h
      rw [Items.fault?, hread item value hvalue, ih values hvalues]
      rfl
  intro draft values h
  cases draft with
  | list items => exact hitems items values h
  | _ => contradiction

/-- Whatever the variant is, what stands behind its name does not break off. -/
lemma takesAll_variant {variants : List (String × Variant α)}
    (h : ∀ v ∈ variants, Reader.TakesAll v.2.read) : (Reader.variant variants).TakesAll := by
  intro draft a hread
  unfold Reader.variant at hread
  split at hread
  next => rfl
  next name value rest =>
    split at hread
    next => contradiction
    next variant hvariant =>
      obtain ⟨before, after, hvariants, -⟩ := List.lookup_eq_some_iff.mp hvariant
      obtain ⟨result, hresult, hread⟩ := bind_eq_ok_iff.mp hread
      obtain ⟨⟨⟩, hclose, -⟩ := bind_eq_ok_iff.mp hread
      have hvalue := h (name, variant) (by simp [hvariants]) value result hresult
      have hrest : rest = .done := by
        unfold Members.closeVariant at hclose
        split at hclose <;> first | rfl | contradiction
      rw [Draft.fault?, Members.fault?, hvalue, hrest]
      rfl
  all_goals contradiction

lemma takesAll_bare (value : α) : Reader.TakesAll (Variant.bare value).read :=
  takesAll_unit.map fun _ => value

lemma takesAll_carrying {read : Reader α} (hread : read.TakesAll) :
    Reader.TakesAll (Variant.carrying read).read :=
  hread

/-! ### Records -/

lemma takesAll_needed {key : String} {read : Reader α} {fill : α → σ → σ}
    (hread : read.TakesAll) : Reader.TakesAll (Field.needed key read fill).read :=
  hread.map fill

lemma takesAll_optional {key : String} {read : Reader α} {fill : α → σ → σ}
    (hread : read.TakesAll) : Reader.TakesAll (Field.optional key read fill).read :=
  hread.map fill

lemma fault?_of_readMembers {r : Record σ} (h : ∀ field ∈ r.fields, Reader.TakesAll field.read)
    {value : σ} : ∀ {members : Members} {seen : List String} {start : σ},
      r.readMembers members seen start = .ok value → members.fault? = none
  | .done, _, _, _ => rfl
  | .more key draft rest, seen, start, hread => by
    obtain ⟨field, fill, hfield, -, hfill, hrest⟩ := readMembers_more_eq_ok_iff.mp hread
    have hdraft := h field (mem_of_find?_key hfield).1 draft fill hfill
    rw [Members.fault?, hdraft, fault?_of_readMembers h hrest]
    rfl

lemma fault?_of_readItems {r : Record σ} {fields : List (Field σ)}
    (h : ∀ field ∈ fields, Reader.TakesAll field.read) {items : Items} {start value : σ}
    (hread : r.readItems fields items start = .ok value) : items.fault? = none := by
  induction fields generalizing items start with
  | nil =>
    obtain ⟨⟨⟩, hclose, -⟩ := bind_eq_ok_iff.mp hread
    unfold Items.closeRecord at hclose
    split at hclose <;> first | rfl | contradiction
  | cons field fields ih =>
    cases items with
    | done => rfl
    | cut fault => contradiction
    | more draft rest =>
      obtain ⟨fill, hfill, hrest⟩ := bind_eq_ok_iff.mp hread
      have hdraft := h field (by simp) draft fill hfill
      rw [Items.fault?, hdraft, ih (fun f hf => h f (List.mem_cons_of_mem _ hf)) hrest]
      rfl

/-- A record passes nothing over when its fields do not. -/
theorem Record.takesAll {r : Record σ} (h : ∀ field ∈ r.fields, Reader.TakesAll field.read) :
    Reader.TakesAll r.read := by
  intro draft value hread
  cases draft with
  | object members => exact fault?_of_readMembers h hread
  | list items => exact fault?_of_readItems h hread
  | _ => contradiction

/-- What a text is read as, its whole draft is read as, which does not break off. -/
lemma Reader.TakesAll.of_ofText {read : Reader α} (hread : read.TakesAll) {text : String} {a : α}
    (h : read.ofText text = .ok a) :
    (Document.ofText text).root.fault? = none ∧ read (Document.ofText text).root = .ok a := by
  obtain ⟨value, hvalue, h⟩ := bind_eq_ok_iff.mp h
  have hroot : read (Document.ofText text).root = .ok a := by
    cases htrailing : (Document.ofText text).trailing with
    | true =>
      rw [htrailing] at h
      contradiction
    | false =>
      rw [htrailing] at h
      rw [hvalue, ← Except.ok.inj h]
  exact ⟨hread _ _ hroot, hroot⟩

end Json

open Json (Reader)

/-! ### Configurations -/

lemma WidthBound.takesAll : Reader.TakesAll WidthBound.read := by
  apply Json.takesAll_variant
  simp only [List.forall_mem_cons, List.not_mem_nil, false_imp_iff, implies_true, and_true]
  exact ⟨Json.takesAll_carrying (Json.takesAll_uint32.map _),
    Json.takesAll_carrying (Json.takesAll_uint32.map _)⟩

lemma Kind.takesAll : Reader.TakesAll Kind.read := by
  apply Json.takesAll_variant
  simp only [List.forall_mem_cons, List.not_mem_nil, false_imp_iff, implies_true, and_true]
  exact ⟨Json.takesAll_bare _, Json.takesAll_bare _, Json.takesAll_bare _⟩

lemma Cutoff.takesAll : Reader.TakesAll Cutoff.read := by
  intro draft cutoff h
  unfold Cutoff.read at h
  split at h
  next => contradiction
  next hwhole => exact hwhole

lemma Declaration.takesAll : Reader.TakesAll Declaration.record.read := by
  apply Json.Record.takesAll
  simp only [Declaration.record, List.forall_mem_cons, List.not_mem_nil, false_imp_iff,
    implies_true, and_true]
  exact ⟨Json.takesAll_needed Json.takesAll_text, Json.takesAll_needed Json.takesAll_int32,
    Json.takesAll_needed Kind.takesAll, Json.takesAll_optional WidthBound.takesAll.nullable,
    Json.takesAll_optional Json.takesAll_text.nullable⟩

lemma Config.takesAll : Reader.TakesAll Config.record.read := by
  apply Json.Record.takesAll
  simp only [Config.record, List.forall_mem_cons, List.not_mem_nil, false_imp_iff,
    implies_true, and_true]
  exact ⟨Json.takesAll_needed Cutoff.takesAll, Json.takesAll_needed Declaration.takesAll.list⟩

/-! ### Source documents -/

lemma Target.takesAll : Reader.TakesAll Target.read :=
  Json.takesAll_text.nullable.map Target.ofName?

lemma Rule.takesAll : Reader.TakesAll Rule.record.read := by
  apply Json.Record.takesAll
  simp only [Rule.record, List.forall_mem_cons, List.not_mem_nil, false_imp_iff,
    implies_true, and_true]
  exact ⟨Json.takesAll_optional Target.takesAll, Json.takesAll_needed Json.takesAll_text⟩

lemma Component.takesAll : Reader.TakesAll Component.record.read := by
  apply Json.Record.takesAll
  simp only [Component.record, List.forall_mem_cons, List.not_mem_nil, false_imp_iff,
    implies_true, and_true]
  exact ⟨Json.takesAll_needed Json.takesAll_text, Json.takesAll_optional Rule.takesAll.list⟩

lemma SourceDocument.takesAll : Reader.TakesAll SourceDocument.record.read := by
  apply Json.Record.takesAll
  simp only [SourceDocument.record, List.forall_mem_cons, List.not_mem_nil, false_imp_iff,
    implies_true, and_true]
  exact Json.takesAll_optional Component.takesAll.list

end MediaSheets
