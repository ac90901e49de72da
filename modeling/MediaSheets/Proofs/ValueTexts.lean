import MediaSheets.Proofs.GrammarTokens
import MediaSheets.Proofs.ReadValues

/-!
# Texts that write a value

`Value.tree` is what the characters of a value mean, however the value is written. Every text
of the grammar that writes the tree of a value is cut as the tokens of the value, and so it is
read as what the value stands for. One of these texts is `Value.compact`.
-/

namespace MediaSheets.Json

mutual

/-- What the characters that write a value mean. Integers are written in decimal. -/
def Value.tree : Value → Tree
  | .null => .null
  | .integer n => .number (.ofInt n)
  | .text s => .text (some s)
  | .list items => .list (itemTrees items)
  | .object members => .object (memberTrees members)

def itemTrees : List Value → List Tree
  | [] => []
  | item :: items => item.tree :: itemTrees items

def memberTrees : List (String × Value) → List (Option String × Tree)
  | [] => []
  | (key, value) :: members => (some key, value.tree) :: memberTrees members

end

/-! ### Tokens -/

lemma treesAfterItem_itemTrees {items : List Value}
    (hitems : ∀ item ∈ items, item.tree.tokens = item.tokens.map some) :
    treesAfterItem (itemTrees items) = (tokensAfterItem items).map some := by
  induction items with
  | nil => rfl
  | cons item items ih =>
    have hitem := hitems item (by simp)
    have hrest := ih fun i hi => hitems i (List.mem_cons_of_mem _ hi)
    rw [itemTrees, treesAfterItem, tokensAfterItem, hitem, hrest, List.map_cons, List.map_append]

lemma treesAfterMember_memberTrees {members : List (String × Value)}
    (hmembers : ∀ m ∈ members, m.2.tree.tokens = m.2.tokens.map some) :
    treesAfterMember (memberTrees members) = (tokensAfterMember members).map some := by
  induction members with
  | nil => rfl
  | cons member members ih =>
    have hvalue := hmembers member (by simp)
    have hrest := ih fun m hm => hmembers m (List.mem_cons_of_mem _ hm)
    rw [memberTrees, treesAfterMember, tokensAfterMember, hvalue, hrest]
    simp only [List.map_cons, List.map_append, Option.map_some]

/-- Within the limits of a reader nothing in a value breaks off. -/
lemma Value.Fits.tokens_tree {depth : Nat} {v : Value} (hv : v.Fits depth) :
    v.tree.tokens = v.tokens.map some := by
  induction hv with
  | null => rfl
  | integer hn =>
    rw [Value.tree, Tree.tokens, Literal.token, Literal.value_ofInt hn]
    rfl
  | text => rfl
  | @list _ items _ ih =>
    cases items with
    | nil => rfl
    | cons item items =>
      have hrest := treesAfterItem_itemTrees fun i hi => ih i (List.mem_cons_of_mem _ hi)
      rw [Value.tree, itemTrees, Tree.tokens, Value.tokens, ih item (by simp), hrest,
        List.map_cons, List.map_append]
  | @object _ members _ ih =>
    cases members with
    | nil => rfl
    | cons member members =>
      have hrest := treesAfterMember_memberTrees fun m hm => ih m (List.mem_cons_of_mem _ hm)
      rw [Value.tree, memberTrees, Tree.tokens, Value.tokens, ih member (by simp), hrest]
      simp only [List.map_cons, List.map_append, Option.map_some]

/-! ### Whole texts -/

/-- However a value is written, its text is read as the value. -/
theorem Reader.ofText_of_writtenIn {v : Value} (hv : v.Fits maxDepth) {text : String}
    (htext : v.tree.WrittenIn text) (read : Reader α) : read.ofText text = read v.draft := by
  have hcut := cutAs_of_writtenIn htext
  rw [hv.tokens_tree] at hcut
  exact Reader.ofText_of_tokens hv hcut.eq_of_map_some read

/-! ### The text on one line -/

lemma unitWrittenAs_hexDigits {n : Nat} (h : n < 256) :
    UnitWrittenAs n ['\\', 'u', '0', '0', hexDigit (n / 16), hexDigit (n % 16)] := by
  have hdigit : ∀ d < 16, IsHexDigit d (hexDigit d) := by decide
  have hunit := UnitWrittenAs.digits (hdigit 0 (by omega)) (hdigit 0 (by omega))
    (hdigit (n / 16) (by omega)) (hdigit (n % 16) (by omega))
  have hsum : 0 * 4096 + 0 * 256 + n / 16 * 16 + n % 16 = n := by omega
  rwa [hsum] at hunit

lemma charWrittenAs_escapedChar (c : Char) : CharWrittenAs c (escapedChar c) := by
  unfold escapedChar
  split_ifs with hquote hbackslash hback htab hline hfeed hreturn hcontrol
  · exact .short (by rw [hquote]; decide)
  · exact .short (by rw [hbackslash]; decide)
  · exact .short (by rw [hback]; decide)
  · exact .short (by rw [htab]; decide)
  · exact .short (by rw [hline]; decide)
  · exact .short (by rw [hfeed]; decide)
  · exact .short (by rw [hreturn]; decide)
  · have hlt : c.toNat < 32 := hcontrol
    exact .unit (unitWrittenAs_hexDigits (by omega))
  · exact .raw (not_lt.mp hcontrol) hquote hbackslash

lemma quotedAs_quotedText (s : String) : QuotedAs (some s) (quotedText s).toList := by
  have hchars : ∀ cs : List Char, CharsWrittenAs cs (cs.flatMap escapedChar) := by
    intro cs
    induction cs with
    | nil => exact .nil
    | cons c cs ih => exact .cons (charWrittenAs_escapedChar c) ih
  rw [toList_quotedText]
  exact .text (hchars s.toList)

lemma digits_toDigits (n : Nat) : Digits (Nat.toDigits 10 n) := by
  have hall : ∀ k < 10, Char.ofNat (48 + k) ∈
      ['0', '1', '2', '3', '4', '5', '6', '7', '8', '9'] := by decide
  constructor
  · exact Nat.toDigits_ne_nil
  intro c hc
  have hdigit := Nat.isDigit_of_mem_toDigits (by omega) (by omega) hc
  obtain ⟨hlow, hhigh⟩ : 48 ≤ c.toNat ∧ c.toNat ≤ 57 := Char.isDigit_iff_toNat.mp hdigit
  have hmem := hall (c.toNat - 48) (by omega)
  rwa [Nat.add_sub_cancel' hlow, Char.ofNat_toNat] at hmem

lemma Literal.writtenAs_ofInt (n : Int) : (ofInt n).WrittenAs (decimal n).toList := by
  have hzero : ∀ n : Nat, (Nat.toDigits 10 n).head? = some '0' → Nat.toDigits 10 n = ['0'] := by
    intro n hn
    rcases Nat.eq_zero_or_pos n with rfl | hpos
    · rfl
    · exact absurd hn (head_toDigits_ne_zero hpos)
  have hunsigned : ∀ (negative : Bool) (n : Nat),
      Literal.WrittenAs ⟨negative, Nat.toDigits 10 n, [], none⟩
        ((if negative then ['-'] else []) ++ Nat.toDigits 10 n) := by
    intro negative n
    have h : Literal.WrittenAs ⟨negative, Nat.toDigits 10 n, [], none⟩ _ :=
      .number (digits_toDigits n) (hzero n) .none .none
    rwa [List.append_nil, List.append_nil] at h
  cases n with
  | ofNat n =>
    have hsign : decide (Int.ofNat n < 0) = false := by simp
    rw [toList_decimal_ofNat, ofInt, hsign]
    exact hunsigned false n
  | negSucc n =>
    have hsign : decide (Int.negSucc n < 0) = true := by simp
    rw [toList_decimal_negSucc, ofInt, hsign]
    exact hunsigned true (n + 1)

def Gap.none : Gap := ⟨[], by simp⟩

/-- Characters without gaps around them. -/
def Placed.plain (cs : List Char) : Placed := ⟨Gap.none, cs, Gap.none⟩

@[simp]
lemma Placed.text_plain (cs : List Char) : (plain cs).text = cs := by
  simp [text, plain, Gap.none]

/-- A member of an object as it is written on one line. -/
def PlacedMember.compact (m : String × Value) : PlacedMember :=
  ⟨some m.1, m.2.tree, .plain (quotedText m.1).toList, .plain m.2.compact.toList⟩

lemma PlacedMember.text_compact (m : String × Value) :
    (compact m).text = (quotedText m.1).toList ++ ':' :: m.2.compact.toList := by
  simp [text, compact]

lemma itemTrees_eq_map (items : List Value) : itemTrees items = items.map Value.tree := by
  induction items with
  | nil => rfl
  | cons item items ih => rw [itemTrees, ih, List.map_cons]

lemma memberTrees_eq_map (members : List (String × Value)) :
    memberTrees members = members.map fun m => (some m.1, m.2.tree) := by
  induction members with
  | nil => rfl
  | cons m members ih => rw [memberTrees, ih, List.map_cons]

/-- What holds of a list or an object when it holds of everything in it holds of every value. -/
@[elab_as_elim]
theorem Value.induction {motive : Value → Prop} (null : motive .null)
    (integer : ∀ n, motive (.integer n)) (text : ∀ s, motive (.text s))
    (list : ∀ items, (∀ item ∈ items, motive item) → motive (.list items))
    (object : ∀ members, (∀ m ∈ members, motive m.2) → motive (.object members)) :
    ∀ v, motive v
  | .null => null
  | .integer n => integer n
  | .text s => text s
  | .list items => list items fun item _ => Value.induction null integer text list object item
  | .object members => object members fun m _ =>
    Value.induction null integer text list object m.2
termination_by v => sizeOf v
decreasing_by
  · rename_i hitem
    have hlt := List.sizeOf_lt_of_mem hitem
    simp only [Value.list.sizeOf_spec]
    omega
  · rename_i hm
    have hlt := List.sizeOf_lt_of_mem hm
    obtain ⟨key, value⟩ := m
    simp only [Value.object.sizeOf_spec, Prod.mk.sizeOf_spec] at hlt ⊢
    omega

lemma toList_compactItems (items : List Value) :
    (compactItems items).toList = [','].intercalate (items.map fun v => v.compact.toList) := by
  induction items with
  | nil => rfl
  | cons item items ih =>
    cases items with
    | nil => simp [compactItems]
    | cons next items =>
      rw [compactItems, String.toList_append, String.toList_append, ih]
      · simp [List.intercalate_cons_cons]
      · simp

lemma toList_compactMembers (members : List (String × Value)) :
    (compactMembers members).toList = [','].intercalate
      (members.map fun m => (quotedText m.1).toList ++ ':' :: m.2.compact.toList) := by
  induction members with
  | nil => rfl
  | cons m members ih =>
    cases members with
    | nil => simp [compactMembers]
    | cons next members =>
      rw [compactMembers, String.toList_append, String.toList_append, ih]
      · simp [List.intercalate_cons_cons]
      · simp

lemma Value.writtenAs_compact (v : Value) : v.tree.WrittenAs v.compact.toList := by
  induction v using Value.induction with
  | null => exact .null
  | integer n => exact .number (Literal.writtenAs_ofInt n)
  | text s => exact .text (quotedAs_quotedText s)
  | list items ih =>
    have hitems : ∀ item ∈ items.map fun v => (v.tree, Placed.plain v.compact.toList),
        item.1.WrittenAs item.2.chars := List.forall_mem_map.mpr ih
    have h := Tree.WrittenAs.list Gap.none hitems
    simp only [List.map_map, Function.comp_def, Placed.text_plain] at h
    rw [tree, itemTrees_eq_map, compact, String.toList_append, String.toList_append,
      toList_compactItems]
    exact h
  | object members ih =>
    have hkeys : ∀ m ∈ members.map PlacedMember.compact, QuotedAs m.key m.keyChars.chars := by
      rw [List.forall_mem_map]
      intro m _
      simp only [PlacedMember.compact, Placed.plain, quotedAs_quotedText]
    have hvalues : ∀ m ∈ members.map PlacedMember.compact, m.value.WrittenAs m.valueChars.chars :=
      List.forall_mem_map.mpr ih
    have h := Tree.WrittenAs.object Gap.none hkeys hvalues
    simp only [List.map_map, Function.comp_def, PlacedMember.text_compact] at h
    rw [tree, memberTrees_eq_map, compact, String.toList_append, String.toList_append,
      toList_compactMembers]
    exact h

/-- Every value can be written, without any gap. -/
theorem Value.writtenIn_compact (v : Value) : v.tree.WrittenIn v.compact :=
  ⟨.plain v.compact.toList, v.writtenAs_compact, (Placed.text_plain _).symm⟩

end MediaSheets.Json
