import MediaSheets.Proofs.JoinedTexts
import MediaSheets.Proofs.Registration

/-!
# Predicates

A predicate can be read back. It is cut into the clauses of its condition, which have no comma,
and the clauses give away the kind of the condition, the direction of its bound and the number
of pixels. So no two conditions have one predicate, and in a registry breakpoints share a
predicate only where they share a condition.
-/

namespace MediaSheets

/-- The characters of clauses: letters, digits, and a few marks, no comma among them. -/
def isClauseChar (c : Char) : Bool := c.isAlphanum || " -:()./".toList.contains c

def isClauseText (text : String) : Bool := text.toList.all isClauseChar

/-! ### Clauses -/

lemma screenClause_singleton (feature : String) :
    screenClause [feature] = "only screen and (" ++ feature ++ ")" := by
  simp [screenClause, ← String.toList_inj]

lemma screenClause_append (features : List String) (feature : String) :
    screenClause (features ++ [feature]) =
      screenClause features ++ " and (" ++ feature ++ ")" := by
  simp [screenClause, ← String.toList_inj]

namespace Media

lemma clauses_width (bound : WidthBound) :
    (width bound).clauses = ["only screen and (" ++ bound.feature ++ ")"] := by
  rw [clauses, screenClause_singleton]

/-- The clauses of dense screens of some width are those of dense screens, each with the width. -/
lemma clauses_widthHiDpi (bound : WidthBound) :
    (widthHiDpi bound).clauses =
      hiDpi.clauses.map fun clause => clause ++ " and (" ++ bound.feature ++ ")" := by
  rw [clauses, clauses, List.map_map]
  exact List.map_congr_left fun density _ => screenClause_append [density] bound.feature

lemma clauses_ne_nil (media : Media) : media.clauses ≠ [] := by
  cases media <;> simp [clauses, densityFeatures]

end Media

/-! ### Characters -/

lemma isClauseText_append (text rest : String) :
    isClauseText (text ++ rest) = (isClauseText text && isClauseText rest) := by
  rw [isClauseText, String.toList_append, List.all_append]
  rfl

lemma isClauseText_repr (n : Nat) : isClauseText n.repr = true := by
  rw [isClauseText, List.all_eq_true]
  intro c hc
  rw [Nat.toList_repr] at hc
  have hdigit := Nat.isDigit_of_mem_toDigits (by decide) (by decide) hc
  simp [isClauseChar, Char.isAlphanum, hdigit]

lemma WidthBound.isClauseText_feature (bound : WidthBound) :
    isClauseText bound.feature = true := by
  have hmin : isClauseText "min-width: " = true := by decide
  have hmax : isClauseText "max-width: " = true := by decide
  have hpx : isClauseText "px" = true := by decide
  cases bound with
  | atLeast px =>
    simp only [feature, isClauseText_append, hmin, isClauseText_repr, hpx, Bool.and_true]
  | atMost px =>
    simp only [feature, isClauseText_append, hmax, isClauseText_repr, hpx, Bool.and_true]

lemma isClauseText_screenClause {features : List String}
    (h : ∀ feature ∈ features, isClauseText feature = true) :
    isClauseText (screenClause features) = true := by
  have hopen : isClauseText " and (" = true := by decide
  have hclose : isClauseText ")" = true := by decide
  induction features using List.reverseRecOn with
  | nil => decide
  | append_singleton features feature ih =>
    have hfeatures := ih fun feature hfeature => h feature (List.mem_append_left _ hfeature)
    have hfeature := h feature (by simp)
    simp only [screenClause_append, isClauseText_append, hfeatures, hopen, hfeature, hclose,
      Bool.and_true]

namespace Media

lemma isClauseText_clauses (media : Media) :
    ∀ clause ∈ media.clauses, isClauseText clause = true := by
  have hdensity : ∀ density ∈ densityFeatures, isClauseText density = true := by decide
  intro clause hclause
  cases media with
  | width bound =>
    obtain rfl := List.mem_singleton.mp hclause
    apply isClauseText_screenClause
    simpa using bound.isClauseText_feature
  | hiDpi =>
    obtain ⟨density, hmem, rfl⟩ := List.mem_map.mp hclause
    apply isClauseText_screenClause
    simpa using hdensity density hmem
  | widthHiDpi bound =>
    obtain ⟨density, hmem, rfl⟩ := List.mem_map.mp hclause
    apply isClauseText_screenClause
    simpa using ⟨hdensity density hmem, bound.isClauseText_feature⟩

lemma isClauseChar_clauses (media : Media) :
    ∀ clause ∈ media.clauses, ∀ c ∈ clause.toList, isClauseChar c = true :=
  fun clause hclause => List.all_eq_true.mp (media.isClauseText_clauses clause hclause)

/-- A predicate has the characters of clauses, and commas between them. -/
lemma isClauseChar_predicate {media : Media} {c : Char} (h : c ∈ media.predicate.toList) :
    isClauseChar c = true ∨ c = ',' := by
  rcases Text.mem_toList_intercalate h with hseparator | ⟨clause, hclause, hc⟩
  · rcases List.mem_cons.mp hseparator with rfl | hblank
    · exact .inr rfl
    · obtain rfl := List.mem_singleton.mp hblank
      exact .inl (by decide)
  · exact .inl (media.isClauseChar_clauses clause hclause c hc)

/-! ### Reading back -/

/-- Cutting a predicate at its commas gives the clauses. -/
lemma pieces_predicate (media : Media) : Text.pieces ", " media.predicate = media.clauses := by
  have hcomma : isClauseChar ',' = false := by decide
  apply Text.pieces_intercalate rfl media.clauses_ne_nil
  intro clause hclause hc
  rw [media.isClauseChar_clauses clause hclause ',' hc] at hcomma
  contradiction

end Media

lemma WidthBound.feature_injective : Function.Injective WidthBound.feature := by
  have hpx : ∀ {front : String} {px px' : UInt32},
      front ++ px.toNat.repr ++ "px" = front ++ px'.toNat.repr ++ "px" → px = px' := by
    intro front px px' h
    rw [String.append_left_inj, String.append_right_inj] at h
    -- the digits give the number back
    have hread := congrArg (fun text => Nat.ofDigitChars 10 text.toList 0) h
    simp only [Nat.toList_repr, Nat.ofDigitChars_ten_toDigits] at hread
    exact UInt32.toNat_inj.mp hread
  intro bound bound' h
  cases bound with
  | atLeast px =>
    cases bound' with
    | atLeast px' => rw [hpx h]
    | atMost px' => simp [feature, ← String.toList_inj] at h
  | atMost px =>
    cases bound' with
    | atLeast px' => simp [feature, ← String.toList_inj] at h
    | atMost px' => rw [hpx h]

lemma screenClause_singleton_inj {feature feature' : String} :
    screenClause [feature] = screenClause [feature'] ↔ feature = feature' := by
  rw [screenClause_singleton, screenClause_singleton, String.append_left_inj,
    String.append_right_inj]

namespace Media

lemma head?_clauses_hiDpi :
    hiDpi.clauses.head? = some (screenClause ["min-device-pixel-ratio: 1.3"]) := rfl

lemma head?_clauses_widthHiDpi (bound : WidthBound) :
    (widthHiDpi bound).clauses.head? = some
      (screenClause ["min-device-pixel-ratio: 1.3"] ++ " and (" ++ bound.feature ++ ")") := by
  rw [clauses_widthHiDpi, List.head?_map, head?_clauses_hiDpi, Option.map_some]

/-- A clause without a width is shorter than the same clause with one. -/
lemma clauses_hiDpi_ne (bound : WidthBound) : hiDpi.clauses ≠ (widthHiDpi bound).clauses := by
  intro h
  have hhead := congrArg List.head? h
  rw [head?_clauses_hiDpi, head?_clauses_widthHiDpi, Option.some_inj] at hhead
  have hlength := congrArg String.length hhead
  have hmark : ")".length = 1 := rfl
  simp only [String.length_append, hmark] at hlength
  omega

lemma clauses_widthHiDpi_inj {bound bound' : WidthBound} :
    (widthHiDpi bound).clauses = (widthHiDpi bound').clauses ↔ bound = bound' := by
  constructor
  · intro h
    have hhead := congrArg List.head? h
    rw [head?_clauses_widthHiDpi, head?_clauses_widthHiDpi, Option.some_inj,
      String.append_left_inj, String.append_right_inj] at hhead
    exact WidthBound.feature_injective hhead
  · rintro rfl
    rfl

lemma length_clauses_hiDpi : hiDpi.clauses.length = 4 := rfl

lemma length_clauses_widthHiDpi (bound : WidthBound) :
    (widthHiDpi bound).clauses.length = 4 := rfl

/-- The clauses tell kinds apart by their number and by what they have in common. -/
lemma clauses_injective : Function.Injective clauses := by
  have hwidth : ∀ {bound : WidthBound} {media : Media}, media.clauses.length = 4 →
      (width bound).clauses ≠ media.clauses := by
    intro bound media hfour h
    have hone : (width bound).clauses.length = 1 := rfl
    rw [h] at hone
    omega
  intro media media' h
  cases media with
  | width bound =>
    cases media' with
    | width bound' =>
      rw [clauses, clauses, List.singleton_inj, screenClause_singleton_inj] at h
      rw [WidthBound.feature_injective h]
    | hiDpi => exact absurd h (hwidth length_clauses_hiDpi)
    | widthHiDpi bound' => exact absurd h (hwidth (length_clauses_widthHiDpi bound'))
  | hiDpi =>
    cases media' with
    | width bound' => exact absurd h.symm (hwidth length_clauses_hiDpi)
    | hiDpi => rfl
    | widthHiDpi bound' => exact absurd h (clauses_hiDpi_ne bound')
  | widthHiDpi bound =>
    cases media' with
    | width bound' => exact absurd h.symm (hwidth (length_clauses_widthHiDpi bound))
    | hiDpi => exact absurd h.symm (clauses_hiDpi_ne bound)
    | widthHiDpi bound' => rw [clauses_widthHiDpi_inj.mp h]

lemma predicate_injective : Function.Injective predicate := by
  intro media media' h
  apply clauses_injective
  rw [← pieces_predicate, h, pieces_predicate]

end Media

/-! ### Predicates in a registry -/

/-- No two conditions have one predicate, and no predicate has a mark that opens or ends a rule
or a line. So breakpoints share their predicates where they share their conditions. -/
theorem predicates_unambiguous :
    Function.Injective Media.predicate ∧
      (∀ media : Media, ∀ c ∈ ['{', '}', '@', '\n'], c ∉ media.predicate.toList) ∧
      ∀ r : Registry, r.Reachable → ∀ b ∈ r.breakpoints, ∀ b' ∈ r.breakpoints,
        ∃ media media', r.media b.name = .ok media ∧ r.media b'.name = .ok media' ∧
          r.predicate b.name = .ok media.predicate ∧ r.predicate b'.name = .ok media'.predicate ∧
          (r.predicate b.name = r.predicate b'.name ↔ media = media') := by
  refine ⟨Media.predicate_injective, ?_, ?_⟩
  · have hmarks : (['{', '}', '@', '\n'].all fun c => !(isClauseChar c || c == ',')) = true := by
      decide
    intro media c hc hmem
    have hmark := List.all_eq_true.mp hmarks c hc
    have hchar : (isClauseChar c || c == ',') = true := by
      simpa using Media.isClauseChar_predicate hmem
    rw [hchar] at hmark
    contradiction
  · intro r hr b hb b' hb'
    obtain ⟨e, he, rfl⟩ := Registry.mem_breakpoints.mp hb
    obtain ⟨e', he', rfl⟩ := Registry.mem_breakpoints.mp hb'
    have hw := hr.wellFormed
    refine ⟨e.media, e'.media, hw.media_of_mem he, hw.media_of_mem he', hw.predicate_of_mem he,
      hw.predicate_of_mem he', ?_⟩
    rw [hw.predicate_of_mem he, hw.predicate_of_mem he', Except.ok.injEq,
      Media.predicate_injective.eq_iff]

/-- A second breakpoint of the same width has the same predicate, and its dense variant and an
upper bound have others. -/
theorem predicates_of_broad :
    ∃ r, Registry.mixed.register ⟨"broad", 9, .width (.atLeast 900)⟩ = .ok r ∧
      r.predicate "broad" = r.predicate "wide" ∧ r.predicate "broad" ≠ r.predicate "wide2x" ∧
      r.predicate "broad" ≠ r.predicate "narrow" := by
  have hregister : Registry.mixed.register ⟨"broad", 9, .width (.atLeast 900)⟩ = .ok _ := rfl
  have hpairs := predicates_unambiguous.2.2 _ (Registry.mixed_reachable.register hregister)
  have hbroad := hpairs ⟨"broad", 9, .width (.atLeast 900)⟩ (by decide)
  refine ⟨_, hregister, ?_, ?_, ?_⟩
  · obtain ⟨media, media', hmedia, hmedia', -, -, hiff⟩ :=
      hbroad ⟨"wide", 5, .width (.atLeast 900)⟩ (by decide)
    exact hiff.mpr (Except.ok.inj (hmedia.symm.trans hmedia'))
  · obtain ⟨media, media', hmedia, hmedia', -, -, hiff⟩ :=
      hbroad ⟨"wide2x", 0, .pairedHiDpi "wide"⟩ (by decide)
    rw [Ne, hiff, ← Except.ok.inj hmedia, ← Except.ok.inj hmedia']
    decide
  · obtain ⟨media, media', hmedia, hmedia', -, -, hiff⟩ :=
      hbroad ⟨"narrow", Int32.minValue, .width (.atMost 400)⟩ (by decide)
    rw [Ne, hiff, ← Except.ok.inj hmedia, ← Except.ok.inj hmedia']
    decide

end MediaSheets
