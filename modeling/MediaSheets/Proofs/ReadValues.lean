import MediaSheets.Json.Reader
import MediaSheets.Proofs.WrittenValues

/-!
# Reading values back

`Value.draft` is what a value is taken for when it is read. Taking a draft from the tokens of
a value leaves off behind the value, and every text that spells these tokens is read as the
draft.
-/

namespace MediaSheets.Json

mutual

/-- The draft that stands for a value. -/
def Value.draft : Value → Draft
  | .null => .null
  | .integer n => .number (.integer n)
  | .text s => .text s
  | .list items => .list (draftItems items)
  | .object members => .object (draftMembers members)

def draftItems : List Value → Items
  | [] => .done
  | item :: items => .more item.draft (draftItems items)

def draftMembers : List (String × Value) → Members
  | [] => .done
  | (key, value) :: members => .more key value.draft (draftMembers members)

end

/-- No value starts with a closing bracket. -/
lemma exists_tokens_cons (v : Value) : ∃ t ts, v.tokens = t :: ts ∧ t ≠ .closeBracket := by
  cases v with
  | null => exact ⟨_, _, rfl, by simp⟩
  | integer n => exact ⟨_, _, rfl, by simp⟩
  | text s => exact ⟨_, _, rfl, by simp⟩
  | list items => cases items <;> exact ⟨_, _, rfl, by simp⟩
  | object members => cases members <;> exact ⟨_, _, rfl, by simp⟩

/-- With this much fuel the value is taken from the front of its tokens. -/
def Value.Taken (depth : Nat) (v : Value) : Prop :=
  ∀ fuel ts, 3 * v.tokens.length ≤ fuel → Draft.take fuel depth (v.tokens ++ ts) = (v.draft, ts)

/-! ### Lists -/

lemma takeFirst_of_ne {fuel depth : Nat} {t : Token} (ht : t ≠ .closeBracket) (ts : List Token) :
    Items.takeFirst (fuel + 1) depth (t :: ts) = Items.takeMore fuel depth (t :: ts) := by
  rw [Items.takeFirst]
  all_goals simp [ht]

lemma takeMore_of_ne {fuel depth : Nat} {t : Token} (ht : t ≠ .closeBracket) {item : Draft}
    {rest : Items} {ts ts' ts'' : List Token}
    (hitem : Draft.take fuel depth (t :: ts) = (item, ts'))
    (hrest : Items.takeNext fuel depth ts' = (rest, ts'')) :
    Items.takeMore (fuel + 1) depth (t :: ts) = (.more item rest, ts'') := by
  rw [Items.takeMore, hitem]
  · simp only [hrest]
  · simp [ht]

lemma takeMore_tokens {depth : Nat} {item : Value} {items : List Value} (hitem : item.Taken depth)
    {fuel : Nat} (hfuel : 3 * item.tokens.length ≤ fuel) {ts ts' : List Token}
    (hrest : Items.takeNext fuel depth ts = (draftItems items, ts')) :
    Items.takeMore (fuel + 1) depth (item.tokens ++ ts) = (draftItems (item :: items), ts') := by
  have htake := hitem fuel ts hfuel
  obtain ⟨t, tokens, htokens, ht⟩ := exists_tokens_cons item
  rw [htokens, List.cons_append] at htake ⊢
  exact takeMore_of_ne ht htake hrest

lemma takeNext_tokens {depth : Nat} {items : List Value} (hitems : ∀ i ∈ items, i.Taken depth)
    (fuel : Nat) (hfuel : 3 * (tokensAfterItem items).length ≤ fuel) (ts : List Token) :
    Items.takeNext fuel depth (tokensAfterItem items ++ ts) = (draftItems items, ts) := by
  induction items generalizing fuel with
  | nil =>
    simp only [tokensAfterItem, List.length_singleton] at hfuel
    obtain ⟨fuel, rfl⟩ : ∃ n, fuel = n + 1 := ⟨fuel - 1, by omega⟩
    simp only [tokensAfterItem, List.cons_append, List.nil_append, Items.takeNext, draftItems]
  | cons item items ih =>
    simp only [tokensAfterItem, List.length_cons, List.length_append] at hfuel
    obtain ⟨fuel, rfl⟩ : ∃ n, fuel = n + 2 := ⟨fuel - 2, by omega⟩
    have hrest := ih (fun i hi => hitems i (List.mem_cons_of_mem _ hi)) fuel (by omega)
    simp only [tokensAfterItem, List.cons_append, List.append_assoc, Items.takeNext]
    exact takeMore_tokens (hitems item (by simp)) (by omega) hrest

lemma taken_list {depth : Nat} {items : List Value} (hitems : ∀ i ∈ items, i.Taken depth) :
    (Value.list items).Taken (depth + 1) := by
  intro fuel ts hfuel
  cases items with
  | nil =>
    simp only [Value.tokens, List.length_cons, List.length_nil] at hfuel
    obtain ⟨fuel, rfl⟩ : ∃ n, fuel = n + 2 := ⟨fuel - 2, by omega⟩
    simp only [Value.tokens, List.cons_append, List.nil_append, Draft.take, Items.takeFirst,
      Value.draft, draftItems]
  | cons item items =>
    simp only [Value.tokens, List.length_cons, List.length_append] at hfuel
    -- past the bracket, past the test for an empty list, and into the first item
    obtain ⟨fuel, rfl⟩ : ∃ n, fuel = n + 3 := ⟨fuel - 3, by omega⟩
    have hrest := takeNext_tokens (fun i hi => hitems i (List.mem_cons_of_mem _ hi)) fuel
      (by omega) ts
    have hmore := takeMore_tokens (hitems item (by simp)) (by omega) hrest
    obtain ⟨t, tokens, htokens, ht⟩ := exists_tokens_cons item
    simp only [Value.tokens, List.cons_append, List.append_assoc, Draft.take, Value.draft]
    rw [htokens, List.cons_append] at hmore ⊢
    rw [takeFirst_of_ne ht, hmore]

/-! ### Objects -/

lemma takeMore_member {depth : Nat} (key : String) {value : Value}
    {members : List (String × Value)} (hvalue : value.Taken depth) {fuel : Nat}
    (hfuel : 3 * value.tokens.length ≤ fuel) {ts ts' : List Token}
    (hrest : Members.takeNext fuel depth ts = (draftMembers members, ts')) :
    Members.takeMore (fuel + 1) depth (.text key :: .colon :: (value.tokens ++ ts)) =
      (draftMembers ((key, value) :: members), ts') := by
  simp only [Members.takeMore, hvalue fuel ts hfuel, hrest, draftMembers]

lemma takeNext_members {depth : Nat} {members : List (String × Value)}
    (hmembers : ∀ m ∈ members, m.2.Taken depth) (fuel : Nat)
    (hfuel : 3 * (tokensAfterMember members).length ≤ fuel) (ts : List Token) :
    Members.takeNext fuel depth (tokensAfterMember members ++ ts) =
      (draftMembers members, ts) := by
  induction members generalizing fuel with
  | nil =>
    simp only [tokensAfterMember, List.length_singleton] at hfuel
    obtain ⟨fuel, rfl⟩ : ∃ n, fuel = n + 1 := ⟨fuel - 1, by omega⟩
    simp only [tokensAfterMember, List.cons_append, List.nil_append, Members.takeNext,
      draftMembers]
  | cons member members ih =>
    simp only [tokensAfterMember, List.length_cons, List.length_append] at hfuel
    obtain ⟨fuel, rfl⟩ : ∃ n, fuel = n + 2 := ⟨fuel - 2, by omega⟩
    have hrest := ih (fun m hm => hmembers m (List.mem_cons_of_mem _ hm)) fuel (by omega)
    simp only [tokensAfterMember, List.cons_append, List.append_assoc, Members.takeNext]
    exact takeMore_member member.1 (hmembers member (by simp)) (by omega) hrest

lemma taken_object {depth : Nat} {members : List (String × Value)}
    (hmembers : ∀ m ∈ members, m.2.Taken depth) : (Value.object members).Taken (depth + 1) := by
  intro fuel ts hfuel
  cases members with
  | nil =>
    simp only [Value.tokens, List.length_cons, List.length_nil] at hfuel
    obtain ⟨fuel, rfl⟩ : ∃ n, fuel = n + 2 := ⟨fuel - 2, by omega⟩
    simp only [Value.tokens, List.cons_append, List.nil_append, Draft.take, Members.takeFirst,
      Value.draft, draftMembers]
  | cons member members =>
    simp only [Value.tokens, List.length_cons, List.length_append] at hfuel
    obtain ⟨fuel, rfl⟩ : ∃ n, fuel = n + 3 := ⟨fuel - 3, by omega⟩
    have hrest := takeNext_members (fun m hm => hmembers m (List.mem_cons_of_mem _ hm)) fuel
      (by omega) ts
    have hmore := takeMore_member member.1 (hmembers member (by simp)) (by omega) hrest
    simp only [Value.tokens, List.cons_append, List.append_assoc, Draft.take, Members.takeFirst,
      hmore, Value.draft]

/-! ### Whole texts -/

/-- A value is taken from the front of its tokens, whatever comes after them. -/
theorem Value.Fits.taken {depth : Nat} {v : Value} (hv : v.Fits depth) : v.Taken depth := by
  have scalar : ∀ {depth : Nat} {t : Token} {draft : Draft},
      (∀ fuel ts, Draft.take (fuel + 1) depth (t :: ts) = (draft, ts)) → ∀ fuel ts,
        3 * [t].length ≤ fuel → Draft.take fuel depth ([t] ++ ts) = (draft, ts) := by
    intro depth t draft h fuel ts hfuel
    rw [List.length_singleton] at hfuel
    obtain ⟨fuel, rfl⟩ : ∃ n, fuel = n + 1 := ⟨fuel - 1, by omega⟩
    exact h fuel ts
  induction hv with
  | null => exact scalar fun _ _ => by simp only [Draft.take, Value.draft]
  | integer hn => exact scalar fun _ _ => by simp only [Draft.take, Value.draft]
  | text => exact scalar fun _ _ => by simp only [Draft.take, Value.draft]
  | list _ ih => exact taken_list ih
  | object _ ih => exact taken_object ih

/-- A text that is cut as the tokens of a value is read as the value, with nothing behind it. -/
theorem Document.ofText_of_tokens {v : Value} (hv : v.Fits maxDepth) {text : String}
    (htext : Token.ofText text = v.tokens) : Document.ofText text = ⟨v.draft, false⟩ := by
  have htake := hv.taken (3 * v.tokens.length + 1) [] (by omega)
  rw [List.append_nil] at htake
  rw [Document.ofText, htext, Document.ofTokens, htake]
  rfl

lemma Reader.ofText_of_tokens {v : Value} (hv : v.Fits maxDepth) {text : String}
    (htext : Token.ofText text = v.tokens) (read : Reader α) :
    read.ofText text = read v.draft := by
  rw [Reader.ofText, Document.ofText_of_tokens hv htext, Document.read]
  cases read v.draft <;> rfl

lemma Reader.ofText_of_spells {v : Value} (hv : v.Fits maxDepth) {text : String}
    (htext : Spells text.toList v.tokens) (read : Reader α) :
    read.ofText text = read v.draft :=
  Reader.ofText_of_tokens hv (ofChars_of_spells htext) read

end MediaSheets.Json
