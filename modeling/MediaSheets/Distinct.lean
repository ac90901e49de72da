/-!
# First occurrences

A list without its repetitions, and lookups among pairs, which find the first one with a key.
-/

namespace MediaSheets

/-- The elements of a list, each at the place where it first occurs. -/
def distinct [BEq α] : List α → List α
  | [] => []
  | a :: as => a :: (distinct as).filter (· != a)

theorem mem_distinct [BEq α] [LawfulBEq α] {a : α} {as : List α} : a ∈ distinct as ↔ a ∈ as := by
  induction as with
  | nil => rfl
  | cons b as ih =>
    rw [distinct, List.mem_cons, List.mem_cons, List.mem_filter, ih]
    by_cases h : a = b
    · simp [h]
    · simp [h]

theorem nodup_distinct [BEq α] [LawfulBEq α] (as : List α) : (distinct as).Nodup := by
  induction as with
  | nil => exact List.nodup_nil
  | cons a as ih =>
    rw [distinct, List.nodup_cons]
    exact ⟨by simp, ih.filter _⟩

theorem distinct_filter [BEq α] [LawfulBEq α] (p : α → Bool) (l : List α) :
    distinct (l.filter p) = (distinct l).filter p := by
  induction l with
  | nil => rfl
  | cons a l ih =>
    cases h : p a with
    | true =>
      rw [List.filter_cons_of_pos h, distinct, distinct, List.filter_cons_of_pos h, ih,
        List.filter_filter, List.filter_filter]
      simp only [Bool.and_comm]
    | false =>
      have hne : ∀ b, (p b && b != a) = p b := by
        intro b
        by_cases hb : b = a
        · subst hb
          simp [h]
        · simp [hb]
      rw [List.filter_cons_of_neg (by simp [h]), ih, distinct,
        List.filter_cons_of_neg (by simp [h]), List.filter_filter]
      simp only [hne]

/-- Going on with a second list adds what the first one does not have. -/
theorem distinct_append [BEq α] [LawfulBEq α] (as bs : List α) :
    distinct (as ++ bs) = distinct as ++ (distinct bs).filter (· ∉ as) := by
  induction as with
  | nil => exact (List.filter_eq_self.mpr (by simp)).symm
  | cons a as ih =>
    rw [List.cons_append, distinct, ih, distinct, List.filter_append, List.filter_filter,
      List.cons_append]
    congr 2
    apply List.filter_congr
    intro b _
    by_cases h : b = a
    · simp [h]
    · simp [h]

theorem distinct_append_of_not_mem [BEq α] [LawfulBEq α] {as : List α} {a : α} (h : a ∉ as) :
    distinct (as ++ [a]) = distinct as ++ [a] := by
  rw [distinct_append]
  simp [distinct, h]

/-- A repetition at the end does not count. -/
theorem distinct_append_of_mem [BEq α] [LawfulBEq α] {as : List α} {a : α} (h : a ∈ as) :
    distinct (as ++ [a]) = distinct as := by
  rw [distinct_append]
  simp [distinct, h]

theorem lookup_cons_of_ne [BEq κ] [LawfulBEq κ] {k k' : κ} (h : k ≠ k') (b : β)
    (pairs : List (κ × β)) :
    ((k', b) :: pairs).lookup k = pairs.lookup k := by
  have hk : (k == k') = false := by simpa using h
  rw [List.lookup_cons, hk]

/-- Taking away the pairs with one key leaves what is found under the others. -/
theorem lookup_filter_ne [BEq κ] [LawfulBEq κ] {k k' : κ} (h : k ≠ k')
    (pairs : List (κ × β)) :
    (pairs.filter (·.1 != k')).lookup k = pairs.lookup k := by
  induction pairs with
  | nil => rfl
  | cons pair pairs ih =>
    obtain ⟨key, b⟩ := pair
    by_cases hkey : key = k'
    · subst hkey
      rw [List.filter_cons_of_neg (by simp), ih, lookup_cons_of_ne h]
    · rw [List.filter_cons_of_pos (by simpa using hkey), List.lookup_cons, List.lookup_cons, ih]

end MediaSheets
