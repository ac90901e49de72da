import MediaSheets.Proofs.DocumentRoundTrip
import MediaSheets.Proofs.RecordReading
import MediaSheets.Proofs.ValueTexts

/-!
# Layouts of documents

A document can be written in many ways. The members of an object come in any order, what is
not given is left out or `null`, and so is a list without items left out. `LaidOutAs` says
which values lay out a document, and every text that writes one of them is read as the document.

Configurations are laid out with numbers of any size, of which a reader can take some.
-/

namespace MediaSheets

open Json (Draft Field Reader ReadsBack Record Value)
open List (Forall₂)

/-! ### Members that may be left out -/

/-- What is not given is left out or `null`. -/
inductive OptionalMember (key : String) : Option Value → List (String × Value) → Prop
  | written (value : Value) : OptionalMember key (some value) [(key, value)]
  | leftOut : OptionalMember key none []
  | null : OptionalMember key none [(key, .null)]

/-- A list may be left out when it has no items. -/
inductive ListMember (key : String) : List Value → List (String × Value) → Prop
  | written (items : List Value) : ListMember key items [(key, .list items)]
  | leftOut : ListMember key [] []

/-! ### Configurations -/

inductive UnboundedWidth
  | atLeast (px : Int)
  | atMost (px : Int)

inductive UnboundedCutoff
  | atRank (rank : Int)
  | atBreakpoint (name : String)

structure UnboundedDeclaration where
  name : String
  rank : Int
  kind : Kind
  width : Option UnboundedWidth
  pairedWith : Option String

/-- A configuration as its text can say it, with numbers of any size. -/
structure UnboundedConfig where
  cutoff : UnboundedCutoff
  breakpoints : List UnboundedDeclaration

def WidthBound.unbounded : WidthBound → UnboundedWidth
  | .atLeast px => .atLeast px.toNat
  | .atMost px => .atMost px.toNat

def Cutoff.unbounded : Cutoff → UnboundedCutoff
  | .atRank rank => .atRank rank.toInt
  | .atBreakpoint name => .atBreakpoint name

def Declaration.unbounded (d : Declaration) : UnboundedDeclaration :=
  ⟨d.name, d.rank.toInt, d.kind, d.width.map WidthBound.unbounded, d.pairedWith⟩

def Config.unbounded (c : Config) : UnboundedConfig :=
  ⟨c.cutoff.unbounded, c.breakpoints.map Declaration.unbounded⟩

def UnboundedWidth.value : UnboundedWidth → Value
  | .atLeast px => .object [("min-width", .integer px)]
  | .atMost px => .object [("max-width", .integer px)]

def UnboundedCutoff.value : UnboundedCutoff → Value
  | .atRank rank => .integer rank
  | .atBreakpoint name => .text name

inductive UnboundedDeclaration.LaidOutAs (d : UnboundedDeclaration) : Value → Prop
  | members {members width pairedWith : List (String × Value)}
      (hwidth : OptionalMember "width" (d.width.map UnboundedWidth.value) width)
      (hpairedWith : OptionalMember "paired_with" (d.pairedWith.map .text) pairedWith)
      (hperm : members.Perm ([("name", .text d.name), ("rank", .integer d.rank),
        ("kind", .text d.kind.name)] ++ width ++ pairedWith)) :
      LaidOutAs d (.object members)

inductive UnboundedConfig.LaidOutAs (c : UnboundedConfig) : Value → Prop
  | members {members : List (String × Value)} {items : List Value}
      (hitems : Forall₂ UnboundedDeclaration.LaidOutAs c.breakpoints items)
      (hperm : members.Perm [("cutoff", c.cutoff.value), ("breakpoints", .list items)]) :
      LaidOutAs c (.object members)

/-- The text writes the configuration in one of its layouts. -/
def UnboundedConfig.WrittenIn (c : UnboundedConfig) (text : String) : Prop :=
  ∃ v, c.LaidOutAs v ∧ v.tree.WrittenIn text

def Config.WrittenIn (c : Config) (text : String) : Prop := c.unbounded.WrittenIn text

/-! ### Source documents -/

inductive Rule.LaidOutAs (r : Rule) : Value → Prop
  | members {members breakpoint : List (String × Value)}
      (hbreakpoint : OptionalMember "breakpoint" (r.target.name?.map .text) breakpoint)
      (hperm : members.Perm (("css", .text r.text) :: breakpoint)) : LaidOutAs r (.object members)

inductive Component.LaidOutAs (c : Component) : Value → Prop
  | members {members rules : List (String × Value)} {items : List Value}
      (hitems : Forall₂ Rule.LaidOutAs c.rules items) (hrules : ListMember "rules" items rules)
      (hperm : members.Perm (("id", .text c.id) :: rules)) : LaidOutAs c (.object members)

inductive SourceDocument.LaidOutAs (d : SourceDocument) : Value → Prop
  | members {members : List (String × Value)} {items : List Value}
      (hitems : Forall₂ Component.LaidOutAs d.components items)
      (hcomponents : ListMember "components" items members) : LaidOutAs d (.object members)

def SourceDocument.WrittenIn (d : SourceDocument) (text : String) : Prop :=
  ∃ v, d.LaidOutAs v ∧ v.tree.WrittenIn text

/-! ### Reading members -/

namespace Json

/-- A member is read as `a`, or it is left out and `a` stands there already. -/
inductive MemberReads (key : String) (read : Reader α) (blank : α) :
    α → List (String × Value) → Prop
  | leftOut : MemberReads key read blank blank []
  | written {a : α} {v : Value} (h : read v.draft = .ok a) :
      MemberReads key read blank a [(key, v)]

variable {key : String} {write : α → Value} {read : Reader α}

lemma readsBack_text {depth : Nat} : ReadsBack depth .text Reader.text where
  fits := fun _ => .text
  read := fun _ => rfl

lemma memberReads_optional (hread : ∀ a, read (write a).draft = .ok a)
    (hnull : ∀ a, write a ≠ .null) {o : Option α} {member : List (String × Value)}
    (h : OptionalMember key (o.map write) member) :
    MemberReads key (Reader.nullable read) none o member := by
  cases o with
  | none =>
    cases h with
    | leftOut => exact .leftOut
    | null => exact .written rfl
  | some a =>
    cases h with
    | written => exact .written (nullable_of_ne_null (hnull a) (hread a))

lemma memberReads_list {as : List α} {items : List Value} {member : List (String × Value)}
    (hread : Reader.list read (Value.list items).draft = .ok as) (h : ListMember key items member) :
    MemberReads key (Reader.list read) [] as member := by
  cases h with
  | written => exact .written hread
  | leftOut =>
    obtain rfl := Except.ok.inj hread
    exact .leftOut

lemma draftMembers_eq_ofEntries (members : List (String × Value)) :
    draftMembers members = .ofEntries (members.map fun m => (m.1, m.2.draft)) := by
  induction members with
  | nil => rfl
  | cons m members ih => rw [draftMembers, ih, List.map_cons, Members.ofEntries]

/-- A member that may be left out is filled in. It makes no difference for the members that
follow whether it was met. -/
lemma readMembers_optional {r : Record σ} {fill : α → σ → σ} {blank a : α} {start value : σ}
    {seen : List String} {member rest : List (String × Value)}
    (hfield : r.fields.find? (fun field => field.key == key) = some (.optional key read fill))
    (hseen : seen.contains key = false) (hblank : fill blank start = start)
    (hmember : MemberReads key read blank a member)
    (hrest : ∀ seen' ∈ [seen, key :: seen],
      r.readMembers (draftMembers rest) seen' (fill a start) = .ok value) :
    r.readMembers (draftMembers (member ++ rest)) seen start = .ok value := by
  cases hmember with
  | leftOut =>
    have h := hrest seen (by simp)
    rwa [hblank] at h
  | written h =>
    rw [List.cons_append, draftMembers, readMembers_more hfield hseen (congrArg (Except.map _) h)]
    exact hrest (key :: seen) (by simp)

/-- The members of a record are read in whatever order they are laid out. -/
lemma Record.read_members_perm {r : Record σ} (hr : r.Orderless)
    {members members' : List (String × Value)} (hperm : members.Perm members') {value : σ}
    (h : r.read (Value.object members').draft = .ok value) :
    r.read (Value.object members).draft = .ok value := by
  rw [Value.draft, draftMembers_eq_ofEntries] at h ⊢
  exact r.read_perm hr (hperm.symm.map _) h

/-- Whatever lays something out stays within `depth` more levels and is read as it. -/
structure ReadsLayouts (depth : Nat) (laidOutAs : α → Value → Prop) (read : Reader α) : Prop where
  fits : ∀ a v, laidOutAs a v → v.Fits depth
  read : ∀ a v, laidOutAs a v → read v.draft = .ok a

lemma ReadsLayouts.fits_list {depth : Nat} {laidOutAs : α → Value → Prop}
    (h : ReadsLayouts depth laidOutAs read) {as : List α} {items : List Value}
    (hitems : Forall₂ laidOutAs as items) : (Value.list items).Fits (depth + 1) := by
  refine .list ?_
  induction hitems with
  | nil => simp
  | cons ha _ ih => exact List.forall_mem_cons.mpr ⟨h.fits _ _ ha, ih⟩

lemma ReadsLayouts.read_list {depth : Nat} {laidOutAs : α → Value → Prop}
    (h : ReadsLayouts depth laidOutAs read) {as : List α} {items : List Value}
    (hitems : Forall₂ laidOutAs as items) :
    Reader.list read (Value.list items).draft = .ok as := by
  have hall : (draftItems items).readAll read = .ok as := by
    induction hitems with
    | nil => rfl
    | cons ha _ ih =>
      rw [draftItems, Items.readAll, h.read _ _ ha, ih]
      rfl
  exact hall

/-- Members stay within the limits when those do that may be left out. -/
lemma fits_of_optionalMember {depth : Nat} (h : ∀ a, (write a).Fits depth) {o : Option α}
    {member : List (String × Value)} (hmember : OptionalMember key (o.map write) member) :
    ∀ m ∈ member, m.2.Fits depth := by
  cases o with
  | none =>
    cases hmember with
    | leftOut => simp
    | null => simpa using Value.Fits.null
  | some a =>
    cases hmember with
    | written => simpa using h a

lemma fits_of_listMember {depth : Nat} {items : List Value} {member : List (String × Value)}
    (h : (Value.list items).Fits depth) (hmember : ListMember key items member) :
    ∀ m ∈ member, m.2.Fits depth := by
  cases hmember with
  | written => simpa using h
  | leftOut => simp

end Json

open Json (MemberReads ReadsLayouts readMembers_more readMembers_optional)

variable {depth : Nat}

/-! ### Configurations are read -/

lemma Declaration.orderless : Declaration.record.Orderless := by
  simp only [Record.Orderless, Declaration.record, List.pairwise_cons, List.forall_mem_cons,
    List.not_mem_nil, false_imp_iff, implies_true, and_true, List.Pairwise.nil]
  refine ⟨⟨?_, ?_, ?_, ?_⟩, ⟨?_, ?_, ?_⟩, ⟨?_, ?_⟩, ?_⟩
  all_goals exact Json.independent_of_fill fun _ _ _ => rfl

lemma WidthBound.value_unbounded (bound : WidthBound) : bound.unbounded.value = bound.toJson := by
  cases bound <;> rfl

lemma Cutoff.value_unbounded (cutoff : Cutoff) : cutoff.unbounded.value = cutoff.toJson := by
  cases cutoff <;> rfl

lemma Declaration.width_unbounded (d : Declaration) :
    d.unbounded.width.map UnboundedWidth.value = d.width.map WidthBound.toJson := by
  rw [Declaration.unbounded, Option.map_map]
  exact congrArg (d.width.map ·) (funext WidthBound.value_unbounded)

lemma WidthBound.toJson_ne_null (bound : WidthBound) : bound.toJson ≠ .null := by
  cases bound <;> simp [toJson]

lemma Declaration.readsLayouts : ReadsLayouts (depth + 2)
    (fun d v => d.unbounded.LaidOutAs v) Declaration.record.read where
  fits := by
    rintro d _ (@⟨members, width, pairedWith, hwidth, hpairedWith, hperm⟩)
    rw [width_unbounded] at hwidth
    have hrank := (@Json.readsBack_int32 (depth + 1)).fits d.rank
    have hfields : ∀ m ∈ [("name", Value.text d.name), ("rank", .integer d.rank.toInt),
        ("kind", .text d.kind.name)], m.2.Fits (depth + 1) := by simp [hrank, Value.Fits.text]
    have hwidth' := Json.fits_of_optionalMember (@WidthBound.readsBack depth).fits hwidth
    have hpairedWith' := Json.fits_of_optionalMember
      (fun _ => @Value.Fits.text (depth + 1) _) hpairedWith
    refine .object fun m hm => ?_
    rw [hperm.mem_iff, List.mem_append, List.mem_append] at hm
    rcases hm with (hm | hm) | hm
    · exact hfields m hm
    · exact hwidth' m hm
    · exact hpairedWith' m hm
  read := by
    rintro d _ (@⟨members, width, pairedWith, hwidth, hpairedWith, hperm⟩)
    rw [width_unbounded] at hwidth
    have hrank := (@Json.readsBack_int32 0).read d.rank
    have hkind := (@Kind.readsBack 0).read d.kind
    have hwidth' := Json.memberReads_optional (@WidthBound.readsBack 0).read
      WidthBound.toJson_ne_null hwidth
    have hpairedWith' := Json.memberReads_optional (@Json.readsBack_text 0).read (by simp)
      hpairedWith
    apply Json.Record.read_members_perm Declaration.orderless hperm
    rw [Value.draft, Json.Record.read, List.append_assoc, ← List.append_nil pairedWith]
    simp only [List.cons_append, List.nil_append, Json.draftMembers]
    rw [readMembers_more rfl rfl rfl, readMembers_more rfl rfl (congrArg (Except.map _) hrank),
      readMembers_more rfl rfl (congrArg (Except.map _) hkind)]
    refine readMembers_optional rfl rfl rfl hwidth' fun seen hseen => ?_
    refine readMembers_optional rfl ?_ rfl hpairedWith' fun seen' hseen' => ?_
    · revert seen
      decide
    · simp only [List.mem_cons, List.not_mem_nil, or_false] at hseen hseen'
      rcases hseen with rfl | rfl <;> rcases hseen' with rfl | rfl <;> rfl

lemma Config.orderless : Config.record.Orderless := by
  simp only [Record.Orderless, Config.record, List.pairwise_cons, List.forall_mem_cons,
    List.not_mem_nil, false_imp_iff, implies_true, and_true, List.Pairwise.nil]
  exact Json.independent_of_fill fun _ _ _ => rfl

lemma Config.readsLayouts : ReadsLayouts (depth + 4)
    (fun c v => c.unbounded.LaidOutAs v) Config.record.read where
  fits := by
    rintro c _ (@⟨members, items, hitems, hperm⟩)
    have hcutoff := (@Cutoff.readsBack (depth + 3)).fits c.cutoff
    rw [← Cutoff.value_unbounded] at hcutoff
    have hbreakpoints := (@Declaration.readsLayouts depth).fits_list
      (List.forall₂_map_left_iff.mp hitems)
    refine .object fun m hm => ?_
    rw [hperm.mem_iff] at hm
    revert m
    simpa using ⟨hcutoff, hbreakpoints⟩
  read := by
    rintro c _ (@⟨members, items, hitems, hperm⟩)
    have hcutoff := (@Cutoff.readsBack 0).read c.cutoff
    rw [← Cutoff.value_unbounded] at hcutoff
    have hbreakpoints := (@Declaration.readsLayouts 0).read_list
      (List.forall₂_map_left_iff.mp hitems)
    apply Json.Record.read_members_perm Config.orderless hperm
    rw [Value.draft, Json.Record.read]
    simp only [Json.draftMembers]
    rw [readMembers_more rfl rfl (congrArg (Except.map _) hcutoff),
      readMembers_more rfl rfl (congrArg (Except.map _) hbreakpoints)]
    rfl

/-! ### Source documents are read -/

lemma Rule.orderless : Rule.record.Orderless := by
  simp only [Record.Orderless, Rule.record, List.pairwise_cons, List.forall_mem_cons,
    List.not_mem_nil, false_imp_iff, implies_true, and_true, List.Pairwise.nil]
  exact Json.independent_of_fill fun _ _ _ => rfl

lemma Target.memberReads {target : Target} {key : String} {member : List (String × Value)}
    (h : OptionalMember key (target.name?.map .text) member) :
    MemberReads key Target.read .universal target member := by
  cases target with
  | universal =>
    cases h with
    | leftOut => exact .leftOut
    | null => exact .written rfl
  | breakpoint name =>
    cases h with
    | written => exact .written rfl

lemma Rule.readsLayouts : ReadsLayouts (depth + 1) LaidOutAs Rule.record.read where
  fits := by
    rintro r _ (@⟨members, breakpoint, hbreakpoint, hperm⟩)
    have hbreakpoint' := Json.fits_of_optionalMember (fun _ => @Value.Fits.text depth _) hbreakpoint
    refine .object fun m hm => ?_
    rcases List.mem_cons.mp (hperm.mem_iff.mp hm) with rfl | hm
    · exact .text
    · exact hbreakpoint' m hm
  read := by
    rintro r _ (@⟨members, breakpoint, hbreakpoint, hperm⟩)
    apply Json.Record.read_members_perm Rule.orderless hperm
    rw [Value.draft, Json.Record.read, Json.draftMembers, readMembers_more rfl rfl rfl,
      ← List.append_nil breakpoint]
    refine readMembers_optional rfl rfl rfl (Target.memberReads hbreakpoint) fun seen hseen => ?_
    simp only [List.mem_cons, List.not_mem_nil, or_false] at hseen
    rcases hseen with rfl | rfl <;> rfl

lemma Component.orderless : Component.record.Orderless := by
  simp only [Record.Orderless, Component.record, List.pairwise_cons, List.forall_mem_cons,
    List.not_mem_nil, false_imp_iff, implies_true, and_true, List.Pairwise.nil]
  exact Json.independent_of_fill fun _ _ _ => rfl

lemma Component.readsLayouts : ReadsLayouts (depth + 3) LaidOutAs Component.record.read where
  fits := by
    rintro c _ (@⟨members, rules, items, hitems, hrules, hperm⟩)
    have hrules' := Json.fits_of_listMember ((@Rule.readsLayouts depth).fits_list hitems) hrules
    refine .object fun m hm => ?_
    rcases List.mem_cons.mp (hperm.mem_iff.mp hm) with rfl | hm
    · exact .text
    · exact hrules' m hm
  read := by
    rintro c _ (@⟨members, rules, items, hitems, hrules, hperm⟩)
    have hrules' := Json.memberReads_list ((@Rule.readsLayouts 0).read_list hitems) hrules
    apply Json.Record.read_members_perm Component.orderless hperm
    rw [Value.draft, Json.Record.read, Json.draftMembers, readMembers_more rfl rfl rfl,
      ← List.append_nil rules]
    refine readMembers_optional rfl rfl rfl hrules' fun seen hseen => ?_
    simp only [List.mem_cons, List.not_mem_nil, or_false] at hseen
    rcases hseen with rfl | rfl <;> rfl

lemma SourceDocument.readsLayouts :
    ReadsLayouts (depth + 5) LaidOutAs SourceDocument.record.read where
  fits := by
    rintro d _ (@⟨members, items, hitems, hcomponents⟩)
    have hitems' := (@Component.readsLayouts depth).fits_list hitems
    exact .object (Json.fits_of_listMember hitems' hcomponents)
  read := by
    rintro d _ (@⟨members, items, hitems, hcomponents⟩)
    have hcomponents' := Json.memberReads_list ((@Component.readsLayouts 0).read_list hitems)
      hcomponents
    rw [Value.draft, Json.Record.read, ← List.append_nil members]
    refine readMembers_optional rfl rfl rfl hcomponents' fun seen hseen => ?_
    simp only [List.mem_cons, List.not_mem_nil, or_false] at hseen
    rcases hseen with rfl | rfl <;> rfl

/-! ### Whole texts -/

lemma Json.ReadsLayouts.ofText {laidOutAs : α → Value → Prop} {read : Reader α}
    (h : ReadsLayouts Json.maxDepth laidOutAs read) {a : α} {v : Value} (hv : laidOutAs a v)
    {text : String} (htext : v.tree.WrittenIn text) : read.ofText text = .ok a := by
  rw [Json.Reader.ofText_of_writtenIn (h.fits a v hv) htext, h.read a v hv]

lemma Config.ofJson_of_writtenIn {c : Config} {text : String} (h : c.WrittenIn text) :
    Config.ofJson text = .ok c := by
  obtain ⟨v, hv, htext⟩ := h
  rw [Config.ofJson, Config.readsLayouts.ofText hv htext]
  rfl

lemma SourceDocument.ofJson_of_writtenIn {d : SourceDocument} {text : String}
    (h : d.WrittenIn text) : SourceDocument.ofJson text = .ok d := by
  obtain ⟨v, hv, htext⟩ := h
  rw [SourceDocument.ofJson, SourceDocument.readsLayouts.ofText hv htext]
  rfl

/-- Configurations and source documents are read from every text that writes them, whatever
the order of the members, the gaps and the escapes, and whatever is left out. -/
theorem documents_read_from_layouts (c : Config) (d : SourceDocument) (text : String) :
    (c.WrittenIn text → Config.ofJson text = .ok c) ∧
      (d.WrittenIn text → SourceDocument.ofJson text = .ok d) :=
  ⟨Config.ofJson_of_writtenIn, SourceDocument.ofJson_of_writtenIn⟩

def Config.single : Config where
  cutoff := .atBreakpoint "wide"
  breakpoints := [⟨"wide", -3, .baseWidth, some (.atLeast 900), none⟩]

/-- The members come the other way round, and what is not given is `null`. -/
def Config.singleText : String :=
  "\x7b\"breakpoints\":[\x7b\"paired_with\":null,\"width\":\x7b\"min-width\":900\x7d," ++
    "\"kind\":\"base-width\",\"rank\":-3,\"name\":\"wide\"\x7d],\"cutoff\":\"wide\"\x7d"

lemma Config.single_writtenIn : Config.single.WrittenIn Config.singleText := by
  have hwide : UnboundedDeclaration.LaidOutAs
      (Declaration.unbounded ⟨"wide", -3, .baseWidth, some (.atLeast 900), none⟩) _ :=
    .members (.written _) .null (List.reverse_perm _)
  have hsingle : Config.single.unbounded.LaidOutAs _ :=
    .members (.cons hwide .nil) (List.reverse_perm _)
  exact ⟨_, hsingle, Value.writtenIn_compact _⟩

def SourceDocument.single : SourceDocument := ⟨[⟨"card", [⟨.universal, "é😀/"⟩]⟩]⟩

/-- The rule has no breakpoint, and every character of its text is escaped in another way.
Blanks stand in front of the first list. -/
def SourceDocument.singleText : String :=
  "\x7b\"components\":\n\t[\x7b\"rules\":[\x7b\"css\":\"\\u00e9\\uD83d\\ude00\\/\"\x7d]," ++
    "\"id\":\"card\"\x7d]\x7d"

lemma SourceDocument.single_writtenIn :
    SourceDocument.single.WrittenIn SourceDocument.singleText := by
  have hrule : Rule.LaidOutAs ⟨.universal, "é😀/"⟩ _ := .members .leftOut (.refl _)
  have hcard : Component.LaidOutAs ⟨"card", [⟨.universal, "é😀/"⟩]⟩ _ :=
    .members (.cons hrule .nil) (.written _) (.swap _ _ _)
  have hsingle : SourceDocument.single.LaidOutAs _ := .members (.cons hcard .nil) (.written _)
  -- the same from the inside out, character by character
  have haccent : Json.CharWrittenAs 'é' "\\u00e9".toList :=
    .unit (@Json.UnitWrittenAs.digits 0 0 14 9 _ _ _ _ (by decide) (by decide) (by decide)
      (by decide))
  have hface : Json.CharWrittenAs '😀' ("\\uD83d".toList ++ "\\ude00".toList) :=
    .pair (by decide)
      (@Json.UnitWrittenAs.digits 13 8 3 13 _ _ _ _ (by decide) (by decide) (by decide)
        (by decide))
      (@Json.UnitWrittenAs.digits 13 14 0 0 _ _ _ _ (by decide) (by decide) (by decide)
        (by decide))
  have hslash : Json.CharWrittenAs '/' "\\/".toList := .short (by decide)
  have hcss : Json.CharsWrittenAs "é😀/".toList _ :=
    .cons haccent (.cons hface (.cons hslash .nil))
  have hkey := Json.quotedAs_quotedText
  have hruleChars := @Json.Tree.WrittenAs.object .none
    [⟨some "css", _, .plain (Json.quotedText "css").toList, .plain _⟩]
    (List.forall_mem_singleton.mpr (hkey "css"))
    (List.forall_mem_singleton.mpr (.text (.text hcss)))
  have hrulesChars := @Json.Tree.WrittenAs.list .none [(_, .plain _)]
    (List.forall_mem_singleton.mpr hruleChars)
  have hcardChars := @Json.Tree.WrittenAs.object .none
    [⟨some "rules", _, .plain (Json.quotedText "rules").toList, .plain _⟩,
      ⟨some "id", .text (some "card"), .plain (Json.quotedText "id").toList,
        .plain (Json.quotedText "card").toList⟩]
    (List.forall_mem_cons.mpr ⟨hkey "rules", List.forall_mem_singleton.mpr (hkey "id")⟩)
    (List.forall_mem_cons.mpr ⟨hrulesChars, List.forall_mem_singleton.mpr (.text (hkey "card"))⟩)
  have hcardsChars := @Json.Tree.WrittenAs.list .none [(_, .plain _)]
    (List.forall_mem_singleton.mpr hcardChars)
  have hsingleChars := @Json.Tree.WrittenAs.object .none
    [⟨some "components", _, .plain (Json.quotedText "components").toList,
      ⟨⟨['\n', '\t'], by simp⟩, _, .none⟩⟩]
    (List.forall_mem_singleton.mpr (hkey "components")) (List.forall_mem_singleton.mpr hcardsChars)
  exact ⟨_, hsingle, .plain _, hsingleChars, rfl⟩

/-- Both texts are read. -/
theorem documents_read_from_single_texts :
    Config.single.WrittenIn Config.singleText ∧
      Config.ofJson Config.singleText = .ok Config.single ∧
      SourceDocument.single.WrittenIn SourceDocument.singleText ∧
      SourceDocument.ofJson SourceDocument.singleText = .ok SourceDocument.single :=
  ⟨Config.single_writtenIn,
    (documents_read_from_layouts Config.single .single _).1 Config.single_writtenIn,
    SourceDocument.single_writtenIn,
    (documents_read_from_layouts Config.single .single _).2 SourceDocument.single_writtenIn⟩

end MediaSheets
