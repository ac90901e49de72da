import MediaSheets.Proofs.TokenSpelling

/-!
# Written values

A value has its tokens, and both ways of writing it spell them: on one line, and with one
element to a line. `Value.Fits` says which values a reader can take: integers have 64 bits,
and nothing is nested too deep.
-/

namespace MediaSheets.Json

/-- The value is within the limits of a reader that may open `depth` more lists or objects. -/
inductive Value.Fits : (depth : Nat) → Value → Prop
  | null {depth : Nat} : Fits depth .null
  | integer {depth : Nat} {n : Int} (hn : Exact n) : Fits depth (.integer n)
  | text {depth : Nat} {s : String} : Fits depth (.text s)
  | list {depth : Nat} {items : List Value} (h : ∀ item ∈ items, Fits depth item) :
      Fits (depth + 1) (.list items)
  | object {depth : Nat} {members : List (String × Value)}
      (h : ∀ member ∈ members, Fits depth member.2) : Fits (depth + 1) (.object members)

mutual

def Value.tokens : Value → List Token
  | .null => [.null]
  | .integer n => [.number (.integer n)]
  | .text s => [.text s]
  | .list [] => [.openBracket, .closeBracket]
  | .list (item :: items) => .openBracket :: (item.tokens ++ tokensAfterItem items)
  | .object [] => [.openBrace, .closeBrace]
  | .object ((key, value) :: members) =>
    .openBrace :: .text key :: .colon :: (value.tokens ++ tokensAfterMember members)

/-- The tokens of a list that come after one of its items. -/
def tokensAfterItem : List Value → List Token
  | [] => [.closeBracket]
  | item :: items => .comma :: (item.tokens ++ tokensAfterItem items)

/-- The tokens of an object that come after one of its members. -/
def tokensAfterMember : List (String × Value) → List Token
  | [] => [.closeBrace]
  | (key, value) :: members =>
    .comma :: .text key :: .colon :: (value.tokens ++ tokensAfterMember members)

end

/-! ### Texts in front of others -/

/-- In front of any text that spells tokens, a text spells more of them. -/
def Writes (text : String) (tokens : List Token) : Prop :=
  ∀ rest ts, Spells rest ts → Spells (text.toList ++ rest) (tokens ++ ts)

/-- In front of a text that does not go on with a number, a text spells more tokens. -/
def WritesOpen (text : String) (tokens : List Token) : Prop :=
  ∀ rest ts, Spells rest ts → EndsNumber rest → Spells (text.toList ++ rest) (tokens ++ ts)

/-- A text that spells tokens also right behind a number. -/
structure Separates (text : String) (tokens : List Token) : Prop where
  writes : Writes text tokens
  endsNumber : ∀ rest, EndsNumber (text.toList ++ rest)

lemma Separates.writesOpen {text : String} {tokens : List Token} (h : Separates text tokens) :
    WritesOpen text tokens :=
  fun rest ts hrest _ => h.writes rest ts hrest

lemma WritesOpen.append {a b : String} {as bs : List Token} (ha : WritesOpen a as)
    (hb : Separates b bs) : Writes (a ++ b) (as ++ bs) := by
  intro rest ts hrest
  rw [String.toList_append, List.append_assoc, List.append_assoc]
  exact ha _ _ (hb.writes rest ts hrest) (hb.endsNumber rest)

lemma Separates.before {a b : String} {as bs : List Token} (ha : Separates a as)
    (hb : Writes b bs) : Separates (a ++ b) (as ++ bs) where
  writes := by
    intro rest ts hrest
    rw [String.toList_append, List.append_assoc, List.append_assoc]
    exact ha.writes _ _ (hb rest ts hrest)
  endsNumber := by
    intro rest
    rw [String.toList_append, List.append_assoc]
    exact ha.endsNumber _

lemma Separates.append {a b : String} {as bs : List Token} (ha : Separates a as)
    (hb : Separates b bs) : Separates (a ++ b) (as ++ bs) :=
  ha.before hb.writes

/-! ### Single tokens -/

lemma separates_of_spelledAs {t : Token} {text : String} (ht : t.SpelledAs text.toList)
    (hnumber : ∀ n, t ≠ .number n) (hends : ∀ rest, EndsNumber (text.toList ++ rest)) :
    Separates text [t] where
  writes := fun _ _ hrest => .token ht (fun n hn => absurd hn (hnumber n)) hrest
  endsNumber := hends

lemma endsNumber_cons {c : Char} (hc : EndsNumber [c]) (rest : List Char) :
    EndsNumber (c :: rest) := hc

lemma separates_openBracket : Separates "[" [.openBracket] :=
  separates_of_spelledAs .openBracket (by simp) (endsNumber_cons (by decide))

lemma separates_closeBracket : Separates "]" [.closeBracket] :=
  separates_of_spelledAs .closeBracket (by simp) (endsNumber_cons (by decide))

lemma separates_openBrace : Separates "\x7b" [.openBrace] :=
  separates_of_spelledAs .openBrace (by simp) (endsNumber_cons (by decide))

lemma separates_closeBrace : Separates "\x7d" [.closeBrace] :=
  separates_of_spelledAs .closeBrace (by simp) (endsNumber_cons (by decide))

lemma separates_comma : Separates "," [.comma] :=
  separates_of_spelledAs .comma (by simp) (endsNumber_cons (by decide))

lemma separates_colon : Separates ":" [.colon] :=
  separates_of_spelledAs .colon (by simp) (endsNumber_cons (by decide))

lemma separates_null : Separates "null" [.null] :=
  separates_of_spelledAs .null (by simp) (endsNumber_cons (by decide))

lemma toList_quotedText (s : String) :
    (quotedText s).toList = '"' :: s.toList.flatMap escapedChar ++ ['"'] := by
  simp [quotedText, String.toList_append]

lemma separates_quotedText (s : String) : Separates (quotedText s) [.text s] := by
  apply separates_of_spelledAs
  · rw [toList_quotedText]
    exact .text (textSpelling_escaped s.toList)
  · simp
  · rw [toList_quotedText]
    exact fun rest => endsNumber_cons (by decide) _

lemma writesOpen_decimal {n : Int} (hn : Exact n) :
    WritesOpen (decimal n) [.number (.integer n)] :=
  fun _ _ hrest hends => .token (.integer hn) (fun _ _ => hends) hrest

lemma Spells.gaps {gap cs : List Char} {ts : List Token} (hgap : ∀ c ∈ gap, isGap c = true)
    (h : Spells cs ts) : Spells (gap ++ cs) ts := by
  induction gap with
  | nil => exact h
  | cons c gap ih =>
    exact .gap (hgap c (by simp)) (ih fun c hc => hgap c (by simp [hc]))

lemma separates_newLine (depth : Nat) : Separates (newLine depth) [] := by
  have hline : (newLine depth).toList = '\n' :: List.replicate (2 * depth) ' ' := by
    simp [newLine, String.toList_append]
  constructor
  · intro rest ts hrest
    apply hrest.gaps
    rw [hline]
    intro c hc
    rcases List.mem_cons.mp hc with rfl | hc
    · rfl
    · rw [List.eq_of_mem_replicate hc]
      rfl
  · rw [hline]
    exact fun rest => endsNumber_cons (by decide) _

/-! ### Values on one line -/

lemma writes_compactItems (item : Value) {items : List Value}
    (h : ∀ i ∈ item :: items, WritesOpen i.compact i.tokens) :
    Writes (compactItems (item :: items) ++ "]") (item.tokens ++ tokensAfterItem items) := by
  induction items generalizing item with
  | nil => exact (h item (by simp)).append separates_closeBracket
  | cons next items ih =>
    have hrest := ih next fun i hi => h i (List.mem_cons_of_mem _ hi)
    -- the comma ends a number, so what the item ends with does not matter
    rw [compactItems, String.append_assoc, String.append_assoc]
    · exact (h item (by simp)).append (separates_comma.before hrest)
    · simp

lemma writes_compactMembers (member : String × Value) {members : List (String × Value)}
    (h : ∀ m ∈ member :: members, WritesOpen m.2.compact m.2.tokens) :
    Writes (compactMembers (member :: members) ++ "\x7d")
      (.text member.1 :: .colon :: (member.2.tokens ++ tokensAfterMember members)) := by
  induction members generalizing member with
  | nil =>
    have hvalue := h member (by simp)
    simp only [compactMembers, String.append_assoc]
    exact ((separates_quotedText member.1).append
      (separates_colon.before (hvalue.append separates_closeBrace))).writes
  | cons next members ih =>
    have hvalue := h member (by simp)
    have hrest := ih next fun m hm => h m (List.mem_cons_of_mem _ hm)
    rw [compactMembers]
    · simp only [String.append_assoc] at hrest ⊢
      exact ((separates_quotedText member.1).append
        (separates_colon.before (hvalue.append (separates_comma.before hrest)))).writes
    · simp

/-- A value on one line spells its tokens. -/
theorem writesOpen_compact {depth : Nat} {v : Value} (hv : v.Fits depth) :
    WritesOpen v.compact v.tokens := by
  induction hv with
  | null => exact separates_null.writesOpen
  | integer hn => exact writesOpen_decimal hn
  | text => exact (separates_quotedText _).writesOpen
  | @list _ items _ ih =>
    cases items with
    | nil => exact (separates_openBracket.append separates_closeBracket).writesOpen
    | cons item items =>
      rw [Value.compact, String.append_assoc]
      exact (separates_openBracket.before (writes_compactItems item ih)).writesOpen
  | @object _ members _ ih =>
    cases members with
    | nil => exact (separates_openBrace.append separates_closeBrace).writesOpen
    | cons member members =>
      rw [Value.compact, String.append_assoc]
      exact (separates_openBrace.before (writes_compactMembers member ih)).writesOpen

/-! ### Values with one element to a line -/

lemma separates_colonBlank : Separates ": " [.colon] := by
  have hblank : Writes " " [] := fun _ _ hrest => .gap rfl hrest
  exact separates_colon.before hblank

lemma separates_prettyItems (depth outer : Nat) {items : List Value}
    (h : ∀ i ∈ items, WritesOpen (i.prettyAt depth) i.tokens) :
    Separates (prettyItems depth items ++ newLine outer ++ "]") (tokensAfterItem items) := by
  induction items with
  | nil =>
    simp only [prettyItems, String.empty_append]
    exact (separates_newLine outer).append separates_closeBracket
  | cons item items ih =>
    have hitem := h item (by simp)
    have hrest := ih fun i hi => h i (List.mem_cons_of_mem _ hi)
    simp only [prettyItems, String.append_assoc] at hrest ⊢
    exact separates_comma.append ((separates_newLine depth).before (hitem.append hrest))

/-- A key and what stands behind it on its line, in front of the later members. -/
lemma separates_prettyMember {key value rest : String} {tokens ts : List Token}
    (hvalue : WritesOpen value tokens) (hrest : Separates rest ts) :
    Separates (quotedText key ++ (": " ++ (value ++ rest)))
      (.text key :: .colon :: (tokens ++ ts)) :=
  (separates_quotedText key).append (separates_colonBlank.before (hvalue.append hrest))

lemma separates_prettyMembers (depth outer : Nat) {members : List (String × Value)}
    (h : ∀ m ∈ members, WritesOpen (m.2.prettyAt depth) m.2.tokens) :
    Separates (prettyMembers depth members ++ newLine outer ++ "\x7d")
      (tokensAfterMember members) := by
  induction members with
  | nil =>
    simp only [prettyMembers, String.empty_append]
    exact (separates_newLine outer).append separates_closeBrace
  | cons member members ih =>
    have hvalue := h member (by simp)
    have hrest := ih fun m hm => h m (List.mem_cons_of_mem _ hm)
    simp only [prettyMembers, String.append_assoc] at hrest ⊢
    exact separates_comma.append
      ((separates_newLine depth).append (separates_prettyMember hvalue hrest))

/-- A value with one element to a line spells its tokens. -/
theorem writesOpen_prettyAt {fit : Nat} {v : Value} (hv : v.Fits fit) (depth : Nat) :
    WritesOpen (v.prettyAt depth) v.tokens := by
  induction hv generalizing depth with
  | null => exact separates_null.writesOpen
  | integer hn => exact writesOpen_decimal hn
  | text => exact (separates_quotedText _).writesOpen
  | @list _ items _ ih =>
    cases items with
    | nil => exact (separates_openBracket.append separates_closeBracket).writesOpen
    | cons item items =>
      have hitem := ih item (by simp) (depth + 1)
      have hitems := separates_prettyItems (depth + 1) depth fun i hi =>
        ih i (List.mem_cons_of_mem _ hi) (depth + 1)
      simp only [Value.prettyAt, String.append_assoc] at hitems ⊢
      exact (separates_openBracket.append
        ((separates_newLine (depth + 1)).before (hitem.append hitems))).writesOpen
  | @object _ members _ ih =>
    cases members with
    | nil => exact (separates_openBrace.append separates_closeBrace).writesOpen
    | cons member members =>
      have hvalue := ih member (by simp) (depth + 1)
      have hmembers := separates_prettyMembers (depth + 1) depth fun m hm =>
        ih m (List.mem_cons_of_mem _ hm) (depth + 1)
      simp only [Value.prettyAt, String.append_assoc] at hmembers ⊢
      exact (separates_openBrace.append ((separates_newLine (depth + 1)).append
        (separates_prettyMember hvalue hmembers))).writesOpen

/-! ### Whole texts -/

lemma spells_of_writesOpen {text : String} {tokens : List Token} (h : WritesOpen text tokens) :
    Spells text.toList tokens := by
  have hspells := h [] [] .nil (by decide)
  rwa [List.append_nil, List.append_nil] at hspells

lemma spells_compact {depth : Nat} {v : Value} (hv : v.Fits depth) :
    Spells v.compact.toList v.tokens :=
  spells_of_writesOpen (writesOpen_compact hv)

lemma spells_pretty {depth : Nat} {v : Value} (hv : v.Fits depth) :
    Spells v.pretty.toList v.tokens :=
  spells_of_writesOpen (writesOpen_prettyAt hv 0)

end MediaSheets.Json
