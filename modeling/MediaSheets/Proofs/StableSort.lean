import Mathlib.Data.List.SplitBy
import Mathlib.Order.Lattice

/-!
# Stable sorting by a rank

`stableSort rank l` is `l` in ascending order of `rank`, where elements with equal ranks keep
their order. When the ranks are those of keys and the keys that occur are listed by
ascending ranks, the result is the concatenation of the parts `withKey key l t` of `l` with
one key each, and these parts are its maximal runs.
-/

namespace MediaSheets

/-! ### Parts with one key -/

section Keys

variable {α τ : Type} [DecidableEq τ]

/-- The part of a list with one key. -/
def withKey (key : α → τ) (l : List α) (t : τ) : List α := l.filter (key · = t)

lemma mem_withKey {key : α → τ} {l : List α} {t : τ} {a : α} :
    a ∈ withKey key l t ↔ a ∈ l ∧ key a = t := by
  simp [withKey]

lemma withKey_cons_self (key : α → τ) (l : List α) (a : α) :
    withKey key (a :: l) (key a) = a :: withKey key l (key a) := by
  simp [withKey]

lemma withKey_cons_of_ne {key : α → τ} {a : α} {t : τ} (h : key a ≠ t) (l : List α) :
    withKey key (a :: l) t = withKey key l t := by
  simp [withKey, h]

lemma withKey_append (key : α → τ) (l l' : List α) (t : τ) :
    withKey key (l ++ l') t = withKey key l t ++ withKey key l' t :=
  List.filter_append ..

lemma withKey_append_self (key : α → τ) (l : List α) (a : α) :
    withKey key (l ++ [a]) (key a) = withKey key l (key a) ++ [a] := by
  simp [withKey]

lemma withKey_append_of_ne {key : α → τ} {a : α} {t : τ} (h : key a ≠ t) (l : List α) :
    withKey key (l ++ [a]) t = withKey key l t := by
  simp [withKey, h]

lemma flatMap_withKey_cons {key : α → τ} {a : α} {ts : List τ} (h : key a ∉ ts)
    (l : List α) :
    ts.flatMap (withKey key (a :: l)) = ts.flatMap (withKey key l) := by
  apply List.flatMap_congr
  intro t ht
  apply withKey_cons_of_ne
  rintro rfl
  exact h ht

lemma map_withKey {β : Type} (key : β → τ) (f : α → β) (l : List α) (t : τ) :
    (withKey (key ∘ f) l t).map f = withKey key (l.map f) t := by
  rw [withKey, withKey, List.filter_map]
  rfl

/-- Lists with the same parts differ in the order of their parts alone. -/
lemma perm_of_withKey {key : α → τ} {l l' : List α}
    (h : ∀ t, withKey key l t = withKey key l' t) : l.Perm l' := by
  classical
  rw [List.perm_iff_count]
  intro a
  have hcount : ∀ l : List α, (withKey key l (key a)).count a = l.count a :=
    fun _ => List.count_filter (by simp)
  rw [← hcount l, h, hcount l']

/-- The maximal stretches of a list with one key each. -/
def runs (key : α → τ) (l : List α) : List (List α) :=
  l.splitBy fun a b => key a == key b

end Keys

lemma flatMap_eq_flatten_filter {α τ : Type} (f : τ → List α) (ts : List τ) :
    ts.flatMap f = ((ts.filter fun t => !(f t).isEmpty).map f).flatten := by
  induction ts with
  | nil => rfl
  | cons t ts ih =>
    rw [List.flatMap_cons, ih]
    cases h : f t <;> simp [h]

/-- Parts with different keys, put one after another, are the runs of the result. -/
theorem runs_flatMap_withKey {α τ : Type} [DecidableEq τ] {ts : List τ} (hts : ts.Nodup)
    (key : α → τ) (l : List α) :
    runs key (ts.flatMap (withKey key l)) =
      (ts.filter fun t => !(withKey key l t).isEmpty).map (withKey key l) := by
  rw [flatMap_eq_flatten_filter, runs]
  apply List.splitBy_flatten
  · simp
  · intro m hm
    obtain ⟨t, -, rfl⟩ := List.mem_map.mp hm
    apply List.Pairwise.isChain
    apply List.pairwise_of_forall_mem_list
    intro a ha b hb
    rw [(mem_withKey.mp ha).2, (mem_withKey.mp hb).2]
    exact beq_self_eq_true t
  · apply List.Pairwise.isChain
    rw [List.pairwise_map]
    refine (hts.filter _).imp_of_mem ?_
    intro t u ht hu hne
    have hnt : withKey key l t ≠ [] := by simpa using (List.mem_filter.mp ht).2
    have hnu : withKey key l u ≠ [] := by simpa using (List.mem_filter.mp hu).2
    refine ⟨hnt, hnu, ?_⟩
    rw [(mem_withKey.mp (List.getLast_mem hnt)).2, (mem_withKey.mp (List.head_mem hnu)).2]
    exact beq_eq_false_iff_ne.mpr hne

/-! ### Sorting -/

/-- A list in ascending order of a rank. Elements with equal ranks keep their order. -/
def stableSort {α κ : Type} [LinearOrder κ] (rank : α → κ) (l : List α) : List α :=
  l.mergeSort fun a b => decide (rank a ≤ rank b)

/-- A list splits in one way only into a part with a property and a part without it. -/
lemma append_inj_of_forall {α : Type} {p : α → Prop} [DecidablePred p] {l₁ l₂ m₁ m₂ : List α}
    (h : l₁ ++ l₂ = m₁ ++ m₂) (hl₁ : ∀ a ∈ l₁, p a) (hl₂ : ∀ a ∈ l₂, ¬p a)
    (hm₁ : ∀ a ∈ m₁, p a) (hm₂ : ∀ a ∈ m₂, ¬p a) : l₁ = m₁ ∧ l₂ = m₂ := by
  have hfilter := congrArg (List.filter (fun a => decide (p a))) h
  have hl : l₁.filter (fun a => decide (p a)) = l₁ := List.filter_eq_self.mpr (by simpa using hl₁)
  have hm : m₁.filter (fun a => decide (p a)) = m₁ := List.filter_eq_self.mpr (by simpa using hm₁)
  have hl' : l₂.filter (fun a => decide (p a)) = [] :=
    List.filter_eq_nil_iff.mpr (by simpa using hl₂)
  have hm' : m₂.filter (fun a => decide (p a)) = [] :=
    List.filter_eq_nil_iff.mpr (by simpa using hm₂)
  rw [List.filter_append, List.filter_append, hl, hm, hl', hm', List.append_nil,
    List.append_nil] at hfilter
  subst hfilter
  exact ⟨rfl, List.append_cancel_left h⟩

section StableSort

variable {α κ τ : Type} [LinearOrder κ] [DecidableEq τ]

lemma rankLE_trans (rank : α → κ) (a b c : α) (hab : decide (rank a ≤ rank b))
    (hbc : decide (rank b ≤ rank c)) : decide (rank a ≤ rank c) := by
  simp only [decide_eq_true_eq] at hab hbc ⊢
  exact le_trans hab hbc

lemma rankLE_total (rank : α → κ) (a b : α) :
    decide (rank a ≤ rank b) || decide (rank b ≤ rank a) := by
  simp only [Bool.or_eq_true, decide_eq_true_eq]
  exact le_total (rank a) (rank b)

lemma stableSort_pairwise (rank : α → κ) (l : List α) :
    (stableSort rank l).Pairwise fun a b => rank a ≤ rank b := by
  have h := List.pairwise_mergeSort (rankLE_trans rank) (rankLE_total rank) l
  exact h.imp fun hab => of_decide_eq_true hab

/-- An element in front of a list is sorted in behind all lower ranks and before all others. -/
lemma stableSort_cons (rank : α → κ) (a : α) (l : List α) :
    ∃ l₁ l₂, stableSort rank (a :: l) = l₁ ++ a :: l₂ ∧ stableSort rank l = l₁ ++ l₂ ∧
      (∀ b ∈ l₁, rank b < rank a) ∧ ∀ b ∈ l₂, rank a ≤ rank b := by
  obtain ⟨l₁, l₂, hcons, htail, hlow⟩ :=
    List.mergeSort_cons (rankLE_trans rank) (rankLE_total rank) a l
  refine ⟨l₁, l₂, hcons, htail, ?_, ?_⟩
  · intro b hb
    simpa using hlow b hb
  · have hsorted := stableSort_pairwise rank (a :: l)
    rw [stableSort, hcons, List.pairwise_append] at hsorted
    exact (List.pairwise_cons.mp hsorted.2.1).1

/-- When the keys that occur are listed by ascending ranks, sorting by these ranks puts
together what has one key, for one key after another. -/
theorem stableSort_eq_flatMap {rank : τ → κ} {key : α → τ} {ts : List τ}
    (hts : ts.Pairwise fun t u => rank t < rank u) {l : List α} (hl : ∀ a ∈ l, key a ∈ ts) :
    stableSort (rank ∘ key) l = ts.flatMap (withKey key l) := by
  induction l with
  | nil => simp [stableSort, withKey]
  | cons a l ih =>
    obtain ⟨l₁, l₂, hcons, htail, hlow, hhigh⟩ := stableSort_cons (rank ∘ key) a l
    obtain ⟨ts₁, ts₂, rfl⟩ := List.append_of_mem (hl a (by simp))
    rw [ih (fun b hb => hl b (by simp [hb]))] at htail
    obtain ⟨-, hts₂, hts₁⟩ := List.pairwise_append.mp hts
    have hbelow : ∀ t ∈ ts₁, rank t < rank (key a) := fun t ht => hts₁ t ht _ (by simp)
    have habove : ∀ t ∈ ts₂, rank (key a) < rank t := (List.pairwise_cons.mp hts₂).1
    -- `a` comes between the parts with lower keys and the others, as its key does
    have hparts : l₁ = ts₁.flatMap (withKey key l) ∧
        l₂ = withKey key l (key a) ++ ts₂.flatMap (withKey key l) := by
      refine append_inj_of_forall (p := fun b => rank (key b) < rank (key a)) ?_ hlow ?_ ?_ ?_
      · rw [← htail, List.flatMap_append, List.flatMap_cons]
      · intro b hb
        exact not_lt.mpr (hhigh b hb)
      · intro b hb
        obtain ⟨t, ht, hbt⟩ := List.mem_flatMap.mp hb
        rw [(mem_withKey.mp hbt).2]
        exact hbelow t ht
      · intro b hb
        rcases List.mem_append.mp hb with hb | hb
        · rw [(mem_withKey.mp hb).2]
          exact lt_irrefl _
        · obtain ⟨t, ht, hbt⟩ := List.mem_flatMap.mp hb
          rw [(mem_withKey.mp hbt).2]
          exact (habove t ht).not_gt
    rw [hcons, hparts.1, hparts.2, List.flatMap_append, List.flatMap_cons, withKey_cons_self,
      flatMap_withKey_cons fun h => lt_irrefl _ (hbelow _ h),
      flatMap_withKey_cons fun h => lt_irrefl _ (habove _ h), List.cons_append]

end StableSort

end MediaSheets
