import MediaSheets.Json.Number
import MediaSheets.Json.Value
import Mathlib.Data.List.Basic

/-!
# Decimal literals

An integer is written as its decimal digits. `Literal.scan` takes these digits off the front
of a text, where nothing that would go on with the number may follow, and for integers of 64
bits `Number.scan` gives the integer back.
-/

namespace MediaSheets.Json

/-- What follows a number does not go on with it. -/
def EndsNumber (rest : List Char) : Prop :=
  ∀ c ∈ rest.head?, c.isDigit = false ∧ c ≠ '.' ∧ c ≠ 'e' ∧ c ≠ 'E'

instance : (rest : List Char) → Decidable (EndsNumber rest)
  | [] => .isTrue (by simp [EndsNumber])
  | c :: _ =>
    decidable_of_iff (c.isDigit = false ∧ c ≠ '.' ∧ c ≠ 'e' ∧ c ≠ 'E') (by simp [EndsNumber])

/-- The integers that are read without rounding. -/
def Exact (n : Int) : Prop := -9223372036854775808 ≤ n ∧ n < 18446744073709551616

/-! ### Digits -/

lemma natOfDigits_toDigits (n : Nat) : natOfDigits (Nat.toDigits 10 n) = n := by
  have hfold : natOfDigits (Nat.toDigits 10 n) = Nat.ofDigitChars 10 (Nat.toDigits 10 n) 0 := by
    rw [Nat.ofDigitChars_eq_foldl]
    rfl
  rw [hfold, Nat.ofDigitChars_ten_toDigits]

lemma digitChar_ne_zero : ∀ d < 10, 0 < d → Nat.digitChar d ≠ '0' := by decide

lemma head_toDigits_ne_zero {n : Nat} (hn : 0 < n) : (Nat.toDigits 10 n).head? ≠ some '0' := by
  induction n using Nat.strongRecOn with
  | _ n ih =>
    by_cases hlt : n < 10
    · rw [Nat.toDigits_of_lt_base hlt, List.head?_cons]
      exact fun h => digitChar_ne_zero n hlt hn (Option.some.inj h)
    · have hhead := ih (n / 10) (by omega) (by omega)
      rw [Nat.toDigits_of_base_le (by omega) (by omega),
        List.head?_append_of_ne_nil _ Nat.toDigits_ne_nil]
      exact hhead

lemma exists_digit_cons (n : Nat) :
    ∃ d digits, Nat.toDigits 10 n = d :: digits ∧ d.isDigit = true := by
  obtain ⟨d, digits, hdigits⟩ :=
    List.exists_cons_of_ne_nil (Nat.toDigits_ne_nil (n := n) (b := 10))
  refine ⟨d, digits, hdigits, ?_⟩
  apply Nat.isDigit_of_mem_toDigits (b := 10) (n := n) (by omega) (by omega)
  rw [hdigits]
  exact List.mem_cons_self

/-- A zero stands alone. -/
lemma toDigits_ne_zero_cons (n : Nat) (c : Char) (cs : List Char) :
    Nat.toDigits 10 n ≠ '0' :: c :: cs := by
  intro h
  rcases Nat.eq_zero_or_pos n with rfl | hn
  · rw [Nat.toDigits_zero] at h
    simp at h
  · exact head_toDigits_ne_zero hn (by rw [h]; rfl)

lemma toList_decimal_ofNat (n : Nat) : (decimal (.ofNat n)).toList = Nat.toDigits 10 n :=
  Nat.toList_repr

lemma toList_decimal_negSucc (n : Nat) :
    (decimal (.negSucc n)).toList = '-' :: Nat.toDigits 10 (n + 1) := by
  rw [decimal, String.toList_append, Nat.toList_repr]
  rfl

/-- An integer starts with a minus sign or a digit. -/
lemma exists_decimal_cons (n : Int) :
    ∃ c cs, (decimal n).toList = c :: cs ∧ (c = '-' ∨ c.isDigit = true) := by
  cases n with
  | ofNat n =>
    obtain ⟨d, digits, hdigits, hd⟩ := exists_digit_cons n
    exact ⟨d, digits, (toList_decimal_ofNat n).trans hdigits, .inr hd⟩
  | negSucc n => exact ⟨'-', _, toList_decimal_negSucc n, .inl rfl⟩

/-! ### Scanning -/

lemma scanDigits_append {digits rest : List Char} (hne : digits ≠ [])
    (hdigits : ∀ c ∈ digits, c.isDigit = true) (hrest : ∀ c ∈ rest.head?, c.isDigit = false) :
    scanDigits (digits ++ rest) = .ok (digits, rest) := by
  have htake : rest.takeWhile Char.isDigit = [] := by
    cases rest with
    | nil => rfl
    | cons c rest => exact List.takeWhile_cons_of_neg (by simp [hrest c rfl])
  have hdrop : rest.dropWhile Char.isDigit = rest := by
    cases rest with
    | nil => rfl
    | cons c rest => exact List.dropWhile_cons_of_neg (by simp [hrest c rfl])
  rw [scanDigits, List.takeWhile_append_of_pos hdigits, List.dropWhile_append_of_pos hdigits, htake,
    hdrop, List.append_nil]
  cases digits with
  | nil => contradiction
  | cons d digits => rfl

lemma scanWhole_append {whole rest : List Char} (hne : whole ≠ [])
    (hdigits : ∀ c ∈ whole, c.isDigit = true) (hzero : ∀ c cs, whole ≠ '0' :: c :: cs)
    (hrest : ∀ c ∈ rest.head?, c.isDigit = false) :
    scanWhole (whole ++ rest) = .ok (whole, rest) := by
  rw [scanWhole, scanDigits_append hne hdigits hrest]
  simp only [bind, Except.bind]
  split
  next heq => exact absurd (congrArg Prod.fst heq) (hzero _ _)
  next => rfl

lemma scanWhole_toDigits (n : Nat) {rest : List Char} (hrest : EndsNumber rest) :
    scanWhole (Nat.toDigits 10 n ++ rest) = .ok (Nat.toDigits 10 n, rest) := by
  have hdigits : ∀ c ∈ Nat.toDigits 10 n, c.isDigit = true :=
    fun c hc => Nat.isDigit_of_mem_toDigits (by omega) (by omega) hc
  exact scanWhole_append Nat.toDigits_ne_nil hdigits (toDigits_ne_zero_cons n)
    fun c hc => (hrest c hc).1

lemma scanFraction_of_ends {rest : List Char} (hrest : EndsNumber rest) :
    scanFraction rest = .ok ([], rest) := by
  cases rest with
  | nil => rfl
  | cons c rest =>
    rw [scanFraction]
    rintro cs ⟨⟩
    exact (hrest '.' rfl).2.1 rfl

lemma scanExponent_of_ends {rest : List Char} (hrest : EndsNumber rest) :
    scanExponent rest = .ok (none, rest) := by
  cases rest with
  | nil => rfl
  | cons c rest =>
    have hc := (hrest c rfl).2.2
    rw [scanExponent.eq_def]
    exact if_neg (by simp [hc])

/-- The literal that an integer is written as. -/
def Literal.ofInt (n : Int) : Literal := ⟨decide (n < 0), Nat.toDigits 10 n.natAbs, [], none⟩

lemma Literal.scanUnsigned_toDigits (negative : Bool) (n : Nat) {rest : List Char}
    (hrest : EndsNumber rest) :
    scanUnsigned negative (Nat.toDigits 10 n ++ rest) =
      .ok (⟨negative, Nat.toDigits 10 n, [], none⟩, rest) := by
  simp only [scanUnsigned, scanWhole_toDigits n hrest, scanFraction_of_ends hrest,
    scanExponent_of_ends hrest, bind, Except.bind]
  rfl

lemma Literal.scan_decimal (n : Int) {rest : List Char} (hrest : EndsNumber rest) :
    scan ((decimal n).toList ++ rest) = .ok (.ofInt n, rest) := by
  cases n with
  | ofNat n =>
    rw [toList_decimal_ofNat, scan, scanUnsigned_toDigits false n hrest]
    · simp [ofInt]
    · -- no digit is a minus sign
      intro cs h
      obtain ⟨d, digits, hdigits, hd⟩ := exists_digit_cons n
      rw [hdigits] at h
      obtain rfl := (List.cons.inj h).1
      contradiction
  | negSucc n =>
    rw [toList_decimal_negSucc, List.cons_append, scan, scanUnsigned_toDigits true (n + 1) hrest]
    simp [ofInt]

/-! ### Values -/

lemma Literal.value_ofInt {n : Int} (hn : Exact n) : (ofInt n).value = .ok (.integer n) := by
  have hdigits : natOfDigits (ofInt n).whole = n.natAbs := natOfDigits_toDigits n.natAbs
  have hinteger : (ofInt n).isInteger = true := rfl
  have hsign : (ofInt n).negative = decide (n < 0) := rfl
  obtain ⟨hlow, hhigh⟩ := hn
  simp only [value, hdigits, hinteger, hsign]
  by_cases hneg : n < 0
  · have hbounds : 0 < n.natAbs ∧ n.natAbs ≤ 9223372036854775808 := by omega
    have habs : -(n.natAbs : Int) = n := by omega
    simp only [hneg, hbounds, habs, decide_true, if_true]
    rfl
  · have hbound : n.natAbs < UInt64.size := by
      simp only [UInt64.size]
      omega
    have habs : (n.natAbs : Int) = n := by omega
    simp only [hneg, hbound, habs]
    rfl

/-- An integer is read back from its decimal digits. -/
theorem Number.scan_decimal {n : Int} (hn : Exact n) {rest : List Char} (hrest : EndsNumber rest) :
    scan ((decimal n).toList ++ rest) = .ok (.integer n, rest) := by
  rw [scan, Literal.scan_decimal n hrest]
  have hvalue := Literal.value_ofInt hn
  simp only [bind, Except.bind, hvalue]
  rfl

end MediaSheets.Json
