import MediaSheets.Proofs.CompleteReading
import MediaSheets.Proofs.DocumentLayouts
import MediaSheets.Proofs.TreeReading
import Mathlib.Data.Set.List

/-!
# Ranges of numbers

A text can say a number of any size. Numbers in range are those of some configuration, and
what a configuration is read from has no other numbers: one that is out of range is neither
wrapped nor rounded, nor taken for anything else.
-/

namespace MediaSheets

open Json (Draft Literal Reader Record Value)

/-! ### Ranges -/

def InInt32 (n : Int) : Prop := -2 ^ 31 ≤ n ∧ n < 2 ^ 31

def InUInt32 (n : Int) : Prop := 0 ≤ n ∧ n < 2 ^ 32

def UnboundedWidth.InRange : UnboundedWidth → Prop
  | .atLeast px => InUInt32 px
  | .atMost px => InUInt32 px

def UnboundedCutoff.InRange : UnboundedCutoff → Prop
  | .atRank rank => InInt32 rank
  | .atBreakpoint _ => True

structure UnboundedDeclaration.InRange (d : UnboundedDeclaration) : Prop where
  rank : InInt32 d.rank
  width : ∀ width ∈ d.width, width.InRange

structure UnboundedConfig.InRange (c : UnboundedConfig) : Prop where
  cutoff : c.cutoff.InRange
  breakpoints : ∀ d ∈ c.breakpoints, d.InRange

lemma exists_int32 {n : Int} (h : InInt32 n) : ∃ rank : Int32, rank.toInt = n :=
  ⟨Int32.ofInt n, Int32.toInt_ofInt_of_le h.1 h.2⟩

lemma exists_uint32 {n : Int} (h : InUInt32 n) : ∃ px : UInt32, (px.toNat : Int) = n := by
  obtain ⟨hlow, hhigh⟩ := h
  have hlt : n.toNat < UInt32.size := by
    rw [UInt32.size]
    omega
  refine ⟨UInt32.ofNat n.toNat, ?_⟩
  rw [UInt32.toNat_ofNat_of_lt' hlt, Int.toNat_of_nonneg hlow]

lemma UnboundedWidth.InRange.exists_bound {width : UnboundedWidth} (h : width.InRange) :
    ∃ bound : WidthBound, bound.unbounded = width := by
  cases width with
  | atLeast px =>
    obtain ⟨px, rfl⟩ := exists_uint32 h
    exact ⟨.atLeast px, rfl⟩
  | atMost px =>
    obtain ⟨px, rfl⟩ := exists_uint32 h
    exact ⟨.atMost px, rfl⟩

lemma UnboundedCutoff.InRange.exists_cutoff {cutoff : UnboundedCutoff} (h : cutoff.InRange) :
    ∃ cutoff' : Cutoff, cutoff'.unbounded = cutoff := by
  cases cutoff with
  | atRank rank =>
    obtain ⟨rank, rfl⟩ := exists_int32 h
    exact ⟨.atRank rank, rfl⟩
  | atBreakpoint name => exact ⟨.atBreakpoint name, rfl⟩

lemma UnboundedDeclaration.InRange.exists_declaration {d : UnboundedDeclaration} (h : d.InRange) :
    ∃ d' : Declaration, d'.unbounded = d := by
  obtain ⟨name, rank, kind, width, pairedWith⟩ := d
  obtain ⟨rank, rfl⟩ := exists_int32 h.rank
  cases width with
  | none => exact ⟨⟨name, rank, kind, none, pairedWith⟩, rfl⟩
  | some width =>
    obtain ⟨bound, rfl⟩ := UnboundedWidth.InRange.exists_bound (h.width width rfl)
    exact ⟨⟨name, rank, kind, some bound, pairedWith⟩, rfl⟩

/-- Numbers in range are the numbers of some configuration. -/
lemma UnboundedConfig.InRange.exists_config {c : UnboundedConfig} (h : c.InRange) :
    ∃ c' : Config, c'.unbounded = c := by
  obtain ⟨cutoff, breakpoints⟩ := c
  obtain ⟨cutoff, rfl⟩ := UnboundedCutoff.InRange.exists_cutoff h.cutoff
  have hds : breakpoints ∈ Set.range (List.map Declaration.unbounded) := by
    rw [Set.range_list_map]
    exact fun d hd => (h.breakpoints d hd).exists_declaration
  obtain ⟨ds, rfl⟩ := hds
  exact ⟨⟨cutoff, ds⟩, rfl⟩

/-! ### What is read is in range -/

namespace Json

/-- A number that is read as an integer is the integer that is written. -/
lemma Literal.eq_of_value_ofInt {n m : Int} (h : (ofInt n).value = .ok (.integer m)) : m = n := by
  have hdigits : natOfDigits (ofInt n).whole = n.natAbs := natOfDigits_toDigits n.natAbs
  have hsign : (ofInt n).negative = decide (n < 0) := rfl
  simp only [value, hdigits, hsign] at h
  split at h
  next hnegative =>
    obtain rfl := Number.integer.inj (Except.ok.inj h)
    simp only [Bool.and_eq_true, decide_eq_true_eq] at hnegative
    omega
  next =>
    split at h
    next hpositive =>
      obtain rfl := Number.integer.inj (Except.ok.inj h)
      simp only [Bool.and_eq_true, Bool.not_eq_true', decide_eq_false_iff_not] at hpositive
      omega
    next =>
      obtain ⟨x, -, hx⟩ := map_eq_ok_iff.mp h
      contradiction

/-- An integer that is written is taken as it is, or not as an integer at all. -/
lemma Value.draft_tree_integer (n : Int) :
    (Value.integer n).tree.draft = .number (.integer n) ∨
      (∃ x, (Value.integer n).tree.draft = .number (.floating x)) ∨
      ∃ fault, (Value.integer n).tree.draft = .broken .other fault := by
  rw [tree, Tree.draft]
  cases h : (Literal.ofInt n).value with
  | error fault => exact .inr (.inr ⟨fault, rfl⟩)
  | ok number =>
    cases number with
    | integer m =>
      obtain rfl := Literal.eq_of_value_ofInt h
      exact .inl rfl
    | floating x => exact .inr (.inl ⟨x, rfl⟩)

lemma inInt32_of_int32? {n : Int} {rank : Int32} (h : int32? n = some rank) : InInt32 n := by
  unfold int32? at h
  split at h
  next hn => exact hn
  next => contradiction

lemma inUInt32_of_uint32? {n : Int} {px : UInt32} (h : uint32? n = some px) : InUInt32 n := by
  unfold uint32? at h
  split at h
  next hn => exact hn
  next => contradiction

lemma inInt32_of_read {n : Int} {rank : Int32}
    (h : Reader.int32 (Value.integer n).tree.draft = .ok rank) : InInt32 n := by
  rcases Value.draft_tree_integer n with hdraft | ⟨x, hdraft⟩ | ⟨fault, hdraft⟩
  · rw [hdraft, Reader.int32] at h
    cases hn : int32? n with
    | none => simp [hn] at h
    | some rank => exact inInt32_of_int32? hn
  · rw [hdraft] at h
    contradiction
  · rw [hdraft] at h
    contradiction

lemma inUInt32_of_read {n : Int} {px : UInt32}
    (h : Reader.uint32 (Value.integer n).tree.draft = .ok px) : InUInt32 n := by
  rcases Value.draft_tree_integer n with hdraft | ⟨x, hdraft⟩ | ⟨fault, hdraft⟩
  · rw [hdraft, Reader.uint32] at h
    cases hn : uint32? n with
    | none => simp [hn] at h
    | some px => exact inUInt32_of_uint32? hn
  · rw [hdraft] at h
    contradiction
  · rw [hdraft] at h
    contradiction

/-- A member of an object is read by the field with its key. -/
lemma read_of_value_member {r : Record σ} {value : σ} {members : List (String × Value)}
    (h : r.read (Value.object members).tree.draft = .ok value) {key : String} {v : Value}
    (hmember : (key, v) ∈ members) :
    ∃ field fill, r.fields.find? (fun field => field.key == key) = some field ∧
      field.read v.tree.draft = .ok fill := by
  rw [Value.tree, memberTrees_eq_map] at h
  exact read_of_member h (List.mem_map_of_mem hmember)

lemma read_of_value_item {read : Reader α} {values : List α} {items : List Value}
    (h : Reader.list read (Value.list items).tree.draft = .ok values) :
    ∀ item ∈ items, ∃ a, read item.tree.draft = .ok a := by
  rw [Value.tree, itemTrees_eq_map, Tree.draft] at h
  exact fun item hitem => read_of_readAll h item.tree (List.mem_map_of_mem hitem)

end Json

lemma UnboundedWidth.inRange_of_read {width : UnboundedWidth} {bound : WidthBound}
    (h : WidthBound.read width.value.tree.draft = .ok bound) : width.InRange := by
  cases width with
  | atLeast px | atMost px =>
    rw [value, Value.tree, Json.memberTrees, Json.memberTrees, Json.Tree.draft, Json.treeMembers,
      Json.treeMembers, WidthBound.read, Json.variant_object rfl] at h
    obtain ⟨px', hpx, -⟩ := map_eq_ok_iff.mp h
    exact Json.inUInt32_of_read hpx

/-- A rank that is no integer of 32 bits is not taken for a name. -/
lemma UnboundedCutoff.inRange_of_read {cutoff : UnboundedCutoff} {cutoff' : Cutoff}
    (h : Cutoff.read cutoff.value.tree.draft = .ok cutoff') : cutoff.InRange := by
  cases cutoff with
  | atBreakpoint name => trivial
  | atRank rank =>
    rw [value] at h
    rcases Value.draft_tree_integer rank with hdraft | ⟨x, hdraft⟩ | ⟨fault, hdraft⟩
    · cases hrank : Json.int32? rank with
      | none => simp [hdraft, Cutoff.read, Json.Draft.fault?, Cutoff.ofWhole?, hrank] at h
      | some rank' => exact Json.inInt32_of_int32? hrank
    · rw [hdraft] at h
      contradiction
    · rw [hdraft] at h
      contradiction

lemma UnboundedDeclaration.inRange_of_read {d : UnboundedDeclaration} {v : Value}
    (hv : d.LaidOutAs v) {d' : Declaration}
    (h : Declaration.record.read v.tree.draft = .ok d') : d.InRange := by
  obtain @⟨members, width, pairedWith, hwidth, hpairedWith, hperm⟩ := hv
  constructor
  · have hmember : ("rank", Value.integer d.rank) ∈ members := hperm.mem_iff.mpr (by simp)
    obtain ⟨field, fill, hfield, hfill⟩ := Json.read_of_value_member h hmember
    obtain rfl := Option.some.inj hfield
    obtain ⟨rank, hrank, -⟩ := map_eq_ok_iff.mp hfill
    exact Json.inInt32_of_read hrank
  · intro bound hbound
    rw [Option.mem_def.mp hbound] at hwidth
    obtain ⟨_⟩ := hwidth
    have hmember : ("width", bound.value) ∈ members := hperm.mem_iff.mpr (by simp)
    obtain ⟨field, fill, hfield, hfill⟩ := Json.read_of_value_member h hmember
    obtain rfl := Option.some.inj hfield
    obtain ⟨_, hread, -⟩ := map_eq_ok_iff.mp hfill
    obtain ⟨inner, hinner⟩ : ∃ inner, bound.value.tree.draft = .object inner := by
      cases bound <;> exact ⟨_, rfl⟩
    rw [hinner] at hread
    obtain ⟨bound', hbound', -⟩ := map_eq_ok_iff.mp hread
    exact UnboundedWidth.inRange_of_read (hinner ▸ hbound')

lemma UnboundedConfig.inRange_of_read {c : UnboundedConfig} {v : Value} (hv : c.LaidOutAs v)
    {c' : Config} (h : Config.record.read v.tree.draft = .ok c') : c.InRange := by
  obtain @⟨members, items, hitems, hperm⟩ := hv
  constructor
  · have hmember : ("cutoff", c.cutoff.value) ∈ members := hperm.mem_iff.mpr (by simp)
    obtain ⟨field, fill, hfield, hfill⟩ := Json.read_of_value_member h hmember
    obtain rfl := Option.some.inj hfield
    obtain ⟨cutoff, hcutoff, -⟩ := map_eq_ok_iff.mp hfill
    exact UnboundedCutoff.inRange_of_read hcutoff
  · have hmember : ("breakpoints", Value.list items) ∈ members := hperm.mem_iff.mpr (by simp)
    obtain ⟨field, fill, hfield, hfill⟩ := Json.read_of_value_member h hmember
    obtain rfl := Option.some.inj hfield
    obtain ⟨ds, hds, -⟩ := map_eq_ok_iff.mp hfill
    have hread := (List.forall₂_and_left _ _).mpr ⟨Json.read_of_value_item hds, hitems.flip⟩
    have hrange := hread.flip.imp fun d item ⟨⟨d', hd'⟩, hitem⟩ =>
      And.intro (UnboundedDeclaration.inRange_of_read hitem hd') hitem
    exact ((List.forall₂_and_left _ _).mp hrange).1

/-! ### Whole texts -/

namespace UnboundedConfig

variable {c : UnboundedConfig} {text : String}

lemma inRange_of_ofJson (htext : c.WrittenIn text) {c' : Config}
    (h : Config.ofJson text = .ok c') : c.InRange := by
  obtain ⟨v, hv, hwritten⟩ := htext
  rw [Config.ofJson] at h
  cases hread : Reader.ofText Config.record.read text with
  | error fault =>
    rw [hread] at h
    contradiction
  | ok c' =>
    obtain ⟨hwhole, hroot⟩ := Config.takesAll.of_ofText hread
    rw [Json.Document.root_of_writtenIn hwritten hwhole] at hroot
    exact inRange_of_read hv hroot

/-- A configuration is read when all numbers are in range, and it has these numbers. -/
theorem exists_ofJson_of_inRange (htext : c.WrittenIn text) (h : c.InRange) :
    ∃ c', Config.ofJson text = .ok c' ∧ c'.unbounded = c := by
  obtain ⟨c', rfl⟩ := h.exists_config
  exact ⟨c', Config.ofJson_of_writtenIn htext, rfl⟩

end UnboundedConfig

end MediaSheets
