import MediaSheets.Proofs.GrammarTokens
import MediaSheets.Proofs.ReadValues

/-!
# Drafts of the grammar

`Tree.draft` is what a tree is taken for. A draft may break off, at a scalar that cannot be
taken or where too much is open at once. One that does not break off is the draft of the tree
that the text writes, so nothing of a text is passed over.
-/

namespace MediaSheets.Json

mutual

/-- The draft that stands for a tree. A scalar that cannot be taken breaks off. -/
def Tree.draft : Tree → Draft
  | .null => .null
  | .boolean value => .boolean value
  | .number literal =>
    match literal.value with
    | .ok n => .number n
    | .error fault => .broken .other fault
  | .text (some s) => .text s
  | .text none => .broken .text .loneSurrogate
  | .list items => .list (treeItems items)
  | .object members => .object (treeMembers members)

def treeItems : List Tree → Items
  | [] => .done
  | item :: items => .more item.draft (treeItems items)

def treeMembers : List (Option String × Tree) → Members
  | [] => .done
  | (some key, value) :: members => .more key value.draft (treeMembers members)
  | (none, _) :: _ => .cut .loneSurrogate

end

/-- What holds of a list or an object when it holds of everything in it holds of every tree. -/
@[elab_as_elim]
theorem Tree.induction {motive : Tree → Prop} (null : motive .null)
    (boolean : ∀ value, motive (.boolean value)) (number : ∀ literal, motive (.number literal))
    (text : ∀ value, motive (.text value))
    (list : ∀ items, (∀ item ∈ items, motive item) → motive (.list items))
    (object : ∀ members, (∀ m ∈ members, motive m.2) → motive (.object members)) :
    ∀ tree, motive tree
  | .null => null
  | .boolean value => boolean value
  | .number literal => number literal
  | .text value => text value
  | .list items => list items fun item _ =>
    Tree.induction null boolean number text list object item
  | .object members => object members fun m _ =>
    Tree.induction null boolean number text list object m.2
termination_by tree => sizeOf tree
decreasing_by
  · rename_i hitem
    have hlt := List.sizeOf_lt_of_mem hitem
    simp only [Tree.list.sizeOf_spec]
    omega
  · rename_i hm
    have hlt := List.sizeOf_lt_of_mem hm
    obtain ⟨key, value⟩ := m
    simp only [Tree.object.sizeOf_spec, Prod.mk.sizeOf_spec] at hlt ⊢
    omega

/-- A draft that does not break off is the one that stands for the tree, and what is left is
cut as what comes behind. -/
def Tree.TakenWhole (tree : Tree) : Prop :=
  ∀ {fuel depth : Nat} {ws : List (Option Token)} {ts rest : List Token} {draft : Draft},
    CutAs (tree.tokens ++ ws) ts → Draft.take fuel depth ts = (draft, rest) →
      draft.fault? = none → draft = tree.draft ∧ CutAs ws rest

/-- There is fuel where something is taken whole. -/
lemma exists_fuel {α : Type} (take : Nat → α × List Token) {fault? : α → Option Fault} {fuel : Nat}
    {a : α} {rest : List Token} (htake : take fuel = (a, rest)) (hwhole : fault? a = none)
    (hzero : fault? (take 0).1 ≠ none) : ∃ n, fuel = n + 1 := by
  cases fuel with
  | zero =>
    rw [htake] at hzero
    contradiction
  | succ n => exact ⟨n, rfl⟩

/-! ### Scalars -/

lemma takenWhole_of_scalar {tree : Tree} {u : Option Token} (htokens : tree.tokens = [u])
    (h : ∀ fuel depth t ts, u = some t →
      Draft.take (fuel + 1) depth (t :: ts) = (tree.draft, ts)) : tree.TakenWhole := by
  intro fuel depth ws ts rest draft hts htake hwhole
  rw [htokens] at hts
  obtain ⟨fuel, rfl⟩ := exists_fuel (Draft.take · depth _) htake hwhole
    (by simp [Draft.take, Draft.fault?])
  cases hts with
  | token hts =>
    rw [h fuel depth _ _ rfl] at htake
    obtain ⟨rfl, rfl⟩ := Prod.mk.inj htake
    exact ⟨rfl, hts⟩
  | broken =>
    simp only [Draft.take, Prod.mk.injEq] at htake
    simp [← htake.1, Draft.fault?] at hwhole

lemma takenWhole_number (literal : Literal) : (Tree.number literal).TakenWhole := by
  apply takenWhole_of_scalar rfl
  intro fuel depth t ts ht
  rw [Literal.token] at ht
  cases hvalue : literal.value with
  | ok n =>
    rw [hvalue] at ht
    obtain rfl := Option.some.inj ht
    simp only [Draft.take, Tree.draft, hvalue]
  | error fault =>
    rw [hvalue] at ht
    contradiction

lemma takenWhole_text (value : Option String) : (Tree.text value).TakenWhole := by
  apply takenWhole_of_scalar rfl
  intro fuel depth t ts ht
  cases value with
  | none => contradiction
  | some s =>
    obtain rfl := Option.some.inj ht
    simp only [Draft.take, Tree.draft]

/-! ### Lists -/

/-- No value starts with a closing bracket. -/
lemma Tree.exists_tokens_cons (tree : Tree) :
    ∃ u us, tree.tokens = u :: us ∧ u ≠ some .closeBracket := by
  cases tree with
  | null => exact ⟨_, _, rfl, by simp⟩
  | boolean value => exact ⟨_, _, rfl, by simp⟩
  | number literal =>
    refine ⟨literal.token, [], rfl, ?_⟩
    rw [Literal.token]
    cases literal.value <;> simp
  | text value => exact ⟨_, _, rfl, by simp⟩
  | list items => cases items <;> exact ⟨_, _, rfl, by simp⟩
  | object members =>
    cases members with
    | nil => exact ⟨_, _, rfl, by simp⟩
    | cons member members => exact ⟨_, _, rfl, by simp⟩

lemma CutAs.exists_cons {u : Option Token} {us : List (Option Token)} {ts : List Token}
    (h : CutAs (u :: us) ts) (hu : u ≠ some .closeBracket) :
    ∃ t ts', ts = t :: ts' ∧ t ≠ .closeBracket := by
  cases h with
  | @token t _ ts' _ => exact ⟨t, ts', rfl, by simpa using hu⟩
  | broken => exact ⟨_, [], rfl, by simp⟩

section Lists

variable {fuel depth : Nat} {ws : List (Option Token)} {ts rest : List Token} {is : Items}

lemma takeMore_whole {item : Tree} {items : List Tree} (hitem : item.TakenWhole)
    (hitems : ∀ {fuel ts rest is}, CutAs (treesAfterItem items ++ ws) ts →
      Items.takeNext fuel depth ts = (is, rest) → is.fault? = none →
        is = treeItems items ∧ CutAs ws rest)
    (hts : CutAs (item.tokens ++ (treesAfterItem items ++ ws)) ts)
    (htake : Items.takeMore fuel depth ts = (is, rest)) (hwhole : is.fault? = none) :
    is = treeItems (item :: items) ∧ CutAs ws rest := by
  obtain ⟨fuel, rfl⟩ := exists_fuel (Items.takeMore · depth _) htake hwhole
    (by simp [Items.takeMore, Items.fault?])
  obtain ⟨u, us, htokens, hu⟩ := item.exists_tokens_cons
  obtain ⟨t, ts, rfl, ht⟩ := CutAs.exists_cons (htokens ▸ hts) hu
  cases hdraft : Draft.take fuel depth (t :: ts) with
  | mk draft ts' =>
    cases hnext : Items.takeNext fuel depth ts' with
    | mk is' ts'' =>
      rw [takeMore_of_ne ht hdraft hnext] at htake
      obtain ⟨rfl, rfl⟩ := Prod.mk.inj htake
      rw [Items.fault?, Option.or_eq_none_iff] at hwhole
      obtain ⟨rfl, hts'⟩ := hitem hts hdraft hwhole.1
      obtain ⟨rfl, hws⟩ := hitems hts' hnext hwhole.2
      exact ⟨rfl, hws⟩

lemma takeNext_whole {items : List Tree} (hitems : ∀ item ∈ items, item.TakenWhole)
    (hts : CutAs (treesAfterItem items ++ ws) ts)
    (htake : Items.takeNext fuel depth ts = (is, rest)) (hwhole : is.fault? = none) :
    is = treeItems items ∧ CutAs ws rest := by
  induction items generalizing fuel ts rest is with
  | nil =>
    cases hts with
    | token hts =>
      obtain ⟨fuel, rfl⟩ := exists_fuel (Items.takeNext · depth _) htake hwhole
        (by simp [Items.takeNext, Items.fault?])
      simp only [Items.takeNext, Prod.mk.injEq] at htake
      obtain ⟨rfl, rfl⟩ := htake
      exact ⟨rfl, hts⟩
  | cons item items ih =>
    rw [treesAfterItem, List.cons_append, List.append_assoc] at hts
    cases hts with
    | token hts =>
      obtain ⟨fuel, rfl⟩ := exists_fuel (Items.takeNext · depth _) htake hwhole
        (by simp [Items.takeNext, Items.fault?])
      rw [Items.takeNext] at htake
      exact takeMore_whole (hitems item (by simp))
        (ih fun i hi => hitems i (List.mem_cons_of_mem _ hi)) hts htake hwhole

lemma takeFirst_whole {items : List Tree} (hitems : ∀ item ∈ items, item.TakenWhole)
    (hts : CutAs ((Tree.list items).tokens ++ ws) (.openBracket :: ts))
    (htake : Items.takeFirst fuel depth ts = (is, rest)) (hwhole : is.fault? = none) :
    is = treeItems items ∧ CutAs ws rest := by
  obtain ⟨fuel, rfl⟩ := exists_fuel (Items.takeFirst · depth _) htake hwhole
    (by simp [Items.takeFirst, Items.fault?])
  cases items with
  | nil =>
    cases hts with
    | token hts =>
      cases hts with
      | token hts =>
        simp only [Items.takeFirst, Prod.mk.injEq] at htake
        obtain ⟨rfl, rfl⟩ := htake
        exact ⟨rfl, hts⟩
  | cons item items =>
    rw [Tree.tokens, List.cons_append, List.append_assoc] at hts
    cases hts with
    | token hts =>
      obtain ⟨u, us, htokens, hu⟩ := item.exists_tokens_cons
      obtain ⟨t, ts, rfl, ht⟩ := CutAs.exists_cons (htokens ▸ hts) hu
      rw [takeFirst_of_ne ht] at htake
      exact takeMore_whole (hitems item (by simp))
        (takeNext_whole fun i hi => hitems i (List.mem_cons_of_mem _ hi)) hts htake hwhole

end Lists

lemma takenWhole_list {items : List Tree} (hitems : ∀ item ∈ items, item.TakenWhole) :
    (Tree.list items).TakenWhole := by
  intro fuel depth ws ts rest draft hts htake hwhole
  obtain ⟨ts, rfl⟩ : ∃ ts', ts = .openBracket :: ts' := by
    cases items with
    | nil => cases hts with | token => exact ⟨_, rfl⟩
    | cons item items => cases hts with | token => exact ⟨_, rfl⟩
  obtain ⟨fuel, rfl⟩ := exists_fuel (Draft.take · depth _) htake hwhole
    (by simp [Draft.take, Draft.fault?])
  cases depth with
  | zero =>
    simp only [Draft.take, Prod.mk.injEq] at htake
    simp [← htake.1, Draft.fault?, Items.fault?] at hwhole
  | succ depth =>
    rw [Draft.take] at htake
    obtain ⟨rfl, rfl⟩ := Prod.mk.inj htake
    obtain ⟨his, hws⟩ := takeFirst_whole hitems hts rfl hwhole
    rw [his]
    exact ⟨rfl, hws⟩

/-! ### Objects -/

section Objects

variable {fuel depth : Nat} {ws : List (Option Token)} {ts rest : List Token} {ms : Members}

/-- A key that breaks off is no key. -/
lemma takeMore_broken {start : Start} {fault : Fault}
    (htake : Members.takeMore fuel depth [.broken start fault] = (ms, rest)) :
    ms.fault? ≠ none := by
  cases fuel with
  | zero =>
    simp only [Members.takeMore, Prod.mk.injEq] at htake
    simp [← htake.1, Members.fault?]
  | succ fuel =>
    cases start
    all_goals
      simp only [Members.takeMore, Prod.mk.injEq] at htake
      simp [← htake.1, Members.fault?]

lemma takeMore_member_whole {key : Option String} {value : Tree}
    {members : List (Option String × Tree)} (hvalue : value.TakenWhole)
    (hmembers : ∀ {fuel ts rest ms}, CutAs (treesAfterMember members ++ ws) ts →
      Members.takeNext fuel depth ts = (ms, rest) → ms.fault? = none →
        ms = treeMembers members ∧ CutAs ws rest)
    (hts : CutAs (key.map .text :: some .colon ::
      (value.tokens ++ (treesAfterMember members ++ ws))) ts)
    (htake : Members.takeMore fuel depth ts = (ms, rest)) (hwhole : ms.fault? = none) :
    ms = treeMembers ((key, value) :: members) ∧ CutAs ws rest := by
  cases key with
  | none =>
    cases hts with
    | broken => exact absurd hwhole (takeMore_broken htake)
  | some key =>
    cases hts with
    | token hts =>
      cases hts with
      | @token _ _ ts hts =>
        obtain ⟨fuel, rfl⟩ := exists_fuel (Members.takeMore · depth _) htake hwhole
          (by simp [Members.takeMore, Members.fault?])
        cases hdraft : Draft.take fuel depth ts with
        | mk draft ts' =>
          cases hnext : Members.takeNext fuel depth ts' with
          | mk ms' ts'' =>
            simp only [Members.takeMore, hdraft, hnext, Prod.mk.injEq] at htake
            obtain ⟨rfl, rfl⟩ := htake
            rw [Members.fault?, Option.or_eq_none_iff] at hwhole
            obtain ⟨rfl, hts'⟩ := hvalue hts hdraft hwhole.1
            obtain ⟨rfl, hws⟩ := hmembers hts' hnext hwhole.2
            exact ⟨rfl, hws⟩

lemma takeNext_members_whole {members : List (Option String × Tree)}
    (hmembers : ∀ m ∈ members, m.2.TakenWhole)
    (hts : CutAs (treesAfterMember members ++ ws) ts)
    (htake : Members.takeNext fuel depth ts = (ms, rest)) (hwhole : ms.fault? = none) :
    ms = treeMembers members ∧ CutAs ws rest := by
  induction members generalizing fuel ts rest ms with
  | nil =>
    cases hts with
    | token hts =>
      obtain ⟨fuel, rfl⟩ := exists_fuel (Members.takeNext · depth _) htake hwhole
        (by simp [Members.takeNext, Members.fault?])
      simp only [Members.takeNext, Prod.mk.injEq] at htake
      obtain ⟨rfl, rfl⟩ := htake
      exact ⟨rfl, hts⟩
  | cons member members ih =>
    obtain ⟨key, value⟩ := member
    simp only [treesAfterMember, List.cons_append, List.append_assoc] at hts
    cases hts with
    | token hts =>
      obtain ⟨fuel, rfl⟩ := exists_fuel (Members.takeNext · depth _) htake hwhole
        (by simp [Members.takeNext, Members.fault?])
      rw [Members.takeNext] at htake
      exact takeMore_member_whole (hmembers (key, value) (by simp))
        (ih fun m hm => hmembers m (List.mem_cons_of_mem _ hm)) hts htake hwhole

/-- A key comes first, not the closing brace. -/
lemma takeFirst_of_key {key : Option String} {us : List (Option Token)}
    (hts : CutAs (key.map .text :: us) ts) :
    Members.takeFirst (fuel + 1) depth ts = Members.takeMore fuel depth ts := by
  cases key with
  | none =>
    cases hts with
    | broken => rw [Members.takeFirst] <;> simp
  | some key =>
    cases hts with
    | token => rw [Members.takeFirst] <;> simp

lemma takeFirst_members_whole {members : List (Option String × Tree)}
    (hmembers : ∀ m ∈ members, m.2.TakenWhole)
    (hts : CutAs ((Tree.object members).tokens ++ ws) (.openBrace :: ts))
    (htake : Members.takeFirst fuel depth ts = (ms, rest)) (hwhole : ms.fault? = none) :
    ms = treeMembers members ∧ CutAs ws rest := by
  obtain ⟨fuel, rfl⟩ := exists_fuel (Members.takeFirst · depth _) htake hwhole
    (by simp [Members.takeFirst, Members.fault?])
  cases members with
  | nil =>
    cases hts with
    | token hts =>
      cases hts with
      | token hts =>
        simp only [Members.takeFirst, Prod.mk.injEq] at htake
        obtain ⟨rfl, rfl⟩ := htake
        exact ⟨rfl, hts⟩
  | cons member members =>
    obtain ⟨key, value⟩ := member
    simp only [Tree.tokens, List.cons_append, List.append_assoc] at hts
    cases hts with
    | token hts =>
      rw [takeFirst_of_key hts] at htake
      exact takeMore_member_whole (hmembers (key, value) (by simp))
        (takeNext_members_whole fun m hm => hmembers m (List.mem_cons_of_mem _ hm)) hts htake
        hwhole

end Objects

lemma takenWhole_object {members : List (Option String × Tree)}
    (hmembers : ∀ m ∈ members, m.2.TakenWhole) : (Tree.object members).TakenWhole := by
  intro fuel depth ws ts rest draft hts htake hwhole
  obtain ⟨ts, rfl⟩ : ∃ ts', ts = .openBrace :: ts' := by
    cases members with
    | nil => cases hts with | token => exact ⟨_, rfl⟩
    | cons member members => cases hts with | token => exact ⟨_, rfl⟩
  obtain ⟨fuel, rfl⟩ := exists_fuel (Draft.take · depth _) htake hwhole
    (by simp [Draft.take, Draft.fault?])
  cases depth with
  | zero =>
    simp only [Draft.take, Prod.mk.injEq] at htake
    simp [← htake.1, Draft.fault?, Members.fault?] at hwhole
  | succ depth =>
    rw [Draft.take] at htake
    obtain ⟨rfl, rfl⟩ := Prod.mk.inj htake
    obtain ⟨hms, hws⟩ := takeFirst_members_whole hmembers hts rfl hwhole
    rw [hms]
    exact ⟨rfl, hws⟩

/-! ### Whole texts -/

theorem Tree.takenWhole (tree : Tree) : tree.TakenWhole := by
  induction tree using Tree.induction with
  | null =>
    refine takenWhole_of_scalar rfl fun fuel depth t ts ht => ?_
    obtain rfl := Option.some.inj ht
    simp only [Draft.take, Tree.draft]
  | boolean value =>
    refine takenWhole_of_scalar rfl fun fuel depth t ts ht => ?_
    obtain rfl := Option.some.inj ht
    simp only [Draft.take, Tree.draft]
  | number literal => exact takenWhole_number literal
  | text value => exact takenWhole_text value
  | list items ih => exact takenWhole_list ih
  | object members ih => exact takenWhole_object ih

/-- The draft of a text that writes a tree breaks off, or it is the one that stands for the
tree. -/
theorem Document.root_of_writtenIn {tree : Tree} {text : String} (htext : tree.WrittenIn text)
    (hwhole : (Document.ofText text).root.fault? = none) :
    (Document.ofText text).root = tree.draft := by
  have hcut := cutAs_of_writtenIn htext
  rw [← List.append_nil tree.tokens] at hcut
  exact (tree.takenWhole hcut rfl hwhole).1

end MediaSheets.Json
