import Mathlib.Init

/-!
# First failures

A list is gone through with a step that can fail. All steps are taken when none of them
fails, and otherwise what comes of it is the failure of the first one that does.
-/

namespace MediaSheets

section FirstFailure

variable {ε α σ : Type}

lemma bind_eq_ok_iff {β : Type} {x : Except ε α} {f : α → Except ε β} {b : β} :
    (x >>= f) = .ok b ↔ ∃ a, x = .ok a ∧ f a = .ok b := by
  cases x with
  | error e => simp [bind, Except.bind]
  | ok a => simp [bind, Except.bind]

lemma bind_eq_error_iff {β : Type} {x : Except ε α} {f : α → Except ε β} {e : ε} :
    (x >>= f) = .error e ↔ x = .error e ∨ ∃ a, x = .ok a ∧ f a = .error e := by
  cases x with
  | error e' => simp [bind, Except.bind]
  | ok a => simp [bind, Except.bind]

lemma map_eq_ok_iff {β : Type} {x : Except ε α} {f : α → β} {b : β} :
    x.map f = .ok b ↔ ∃ a, x = .ok a ∧ f a = b := by
  cases x with
  | error e => simp [Except.map]
  | ok a => simp [Except.map]

lemma map_eq_error_iff {β : Type} {x : Except ε α} {f : α → β} {e : ε} :
    x.map f = .error e ↔ x = .error e := by
  cases x with
  | error e' => simp [Except.map]
  | ok a => simp [Except.map]

lemma foldlM_append_singleton_eq_ok_iff {step : σ → α → Except ε σ} {s t : σ} {l : List α} {a : α} :
    (l ++ [a]).foldlM step s = .ok t ↔ ∃ u, l.foldlM step s = .ok u ∧ step u a = .ok t := by
  rw [List.foldlM_append, bind_eq_ok_iff]
  simp

/-- The failure is that of the first step that fails. -/
theorem foldlM_eq_error_iff {step : σ → α → Except ε σ} {s : σ} {l : List α} {e : ε} :
    l.foldlM step s = .error e ↔ ∃ before a after t, l = before ++ a :: after ∧
      before.foldlM step s = .ok t ∧ step t a = .error e := by
  constructor
  · intro h
    induction l generalizing s with
    | nil => contradiction
    | cons b l ih =>
      rw [List.foldlM_cons, bind_eq_error_iff] at h
      rcases h with hb | ⟨u, hb, hl⟩
      · exact ⟨[], b, l, s, rfl, rfl, hb⟩
      · obtain ⟨before, a, after, t, rfl, hbefore, ha⟩ := ih hl
        refine ⟨b :: before, a, after, t, rfl, ?_, ha⟩
        rw [List.foldlM_cons, hb]
        exact hbefore
  · rintro ⟨before, a, after, t, rfl, hbefore, ha⟩
    rw [List.foldlM_append, hbefore]
    have hstep : (a :: after).foldlM step t = .error e := by
      rw [List.foldlM_cons, ha]
      rfl
    exact hstep

lemma forM_eq_foldlM (check : α → Except ε Unit) (l : List α) :
    l.forM check = l.foldlM (fun _ a => check a) () := by
  induction l with
  | nil => rfl
  | cons a l ih =>
    have hstep : (a :: l).forM check = (check a >>= fun _ => l.forM check) := rfl
    rw [hstep, ih]
    rfl

lemma forM_eq_ok_iff {check : α → Except ε Unit} {l : List α} :
    l.forM check = .ok () ↔ ∀ a ∈ l, check a = .ok () := by
  induction l with
  | nil => simp [List.forM, pure, Except.pure]
  | cons a l ih =>
    have hstep : (a :: l).forM check = (check a >>= fun _ => l.forM check) := rfl
    rw [hstep, bind_eq_ok_iff, List.forall_mem_cons, ← ih]
    constructor
    · rintro ⟨_, ha, hl⟩
      exact ⟨ha, hl⟩
    · rintro ⟨ha, hl⟩
      exact ⟨(), ha, hl⟩

lemma forM_congr {check check' : α → Except ε Unit} {l : List α}
    (h : ∀ a ∈ l, check' a = check a) : l.forM check' = l.forM check := by
  induction l with
  | nil => rfl
  | cons a l ih =>
    have hstep : ∀ look : α → Except ε Unit,
        (a :: l).forM look = (look a >>= fun _ => l.forM look) := fun _ => rfl
    rw [hstep, hstep, h a List.mem_cons_self, ih fun b hb => h b (List.mem_cons_of_mem a hb)]

theorem forM_eq_error_iff {check : α → Except ε Unit} {l : List α} {e : ε} :
    l.forM check = .error e ↔ ∃ before a after, l = before ++ a :: after ∧
      (∀ b ∈ before, check b = .ok ()) ∧ check a = .error e := by
  rw [forM_eq_foldlM, foldlM_eq_error_iff]
  simp only [← forM_eq_ok_iff, forM_eq_foldlM]
  constructor
  · rintro ⟨before, a, after, _, rfl, hbefore, ha⟩
    exact ⟨before, a, after, rfl, hbefore, ha⟩
  · rintro ⟨before, a, after, rfl, hbefore, ha⟩
    exact ⟨before, a, after, (), rfl, hbefore, ha⟩

end FirstFailure

end MediaSheets
