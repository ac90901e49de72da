import MediaSheets.Proofs.Predicates

/-!
# Predicates of dense variants

A dense variant has the width of its base, which was looked up when it was registered.
`Registry.ComposesPair` says what that comes to in the predicates of the two. It holds wherever
both are registered, and no later change takes a breakpoint away.
-/

namespace MediaSheets.Registry

/-- The predicate of a dense variant is made of the clauses for dense screens, with the feature
of its base's width behind each of them. -/
structure ComposesPair (r : Registry) (variant base : Breakpoint) (bound : WidthBound) :
    Prop where
  resolve_variant : r.resolve variant.name = .ok variant
  resolve_base : r.resolve base.name = .ok base
  predicate_base : r.predicate base.name = .ok ("only screen and (" ++ bound.feature ++ ")")
  predicate_variant : ∃ text, r.predicate variant.name = .ok text ∧
    (Text.pieces ", " text).length = 4 ∧
    Text.pieces ", " text = (Text.pieces ", " Media.hiDpi.predicate).map
      fun clause => clause ++ " and (" ++ bound.feature ++ ")"

/-! ### Pairs in one registry -/

lemma predicate_width (bound : WidthBound) :
    (Media.width bound).predicate = "only screen and (" ++ bound.feature ++ ")" := by
  rw [Media.predicate, Media.clauses_width, String.intercalate_singleton]

lemma pieces_predicate_widthHiDpi (bound : WidthBound) :
    Text.pieces ", " (Media.widthHiDpi bound).predicate =
      (Text.pieces ", " Media.hiDpi.predicate).map
        fun clause => clause ++ " and (" ++ bound.feature ++ ")" := by
  rw [Media.pieces_predicate, Media.pieces_predicate, Media.clauses_widthHiDpi]

lemma Reachable.composesPair {r : Registry} (hr : r.Reachable) {variant base : Breakpoint}
    {bound : WidthBound} (hvariant : variant ∈ r.breakpoints) (hbase : base ∈ r.breakpoints)
    (hpaired : variant.condition = .pairedHiDpi base.name)
    (hbound : base.condition = .width bound) : r.ComposesPair variant base bound := by
  have hw := hr.wellFormed
  obtain ⟨e, he, rfl⟩ := mem_breakpoints.mp hvariant
  obtain ⟨e', he', rfl⟩ := mem_breakpoints.mp hbase
  have hwidth := hr.media_of_pair he he' hpaired hbound
  constructor
  · exact hw.resolve_of_mem he
  · exact hw.resolve_of_mem he'
  · rw [hw.predicate_of_mem he', hr.media_of_width he' hbound, predicate_width]
  · refine ⟨_, hw.predicate_of_mem he, ?_, ?_⟩
    · rw [hwidth, Media.pieces_predicate, Media.length_clauses_widthHiDpi]
    · rw [hwidth, pieces_predicate_widthHiDpi]

/-! ### Pairs after changes -/

lemma mem_breakpoints_change {r : Registry} {b : Breakpoint} (hb : b ∈ r.breakpoints)
    (c : Change) : b ∈ (r.change c).2.breakpoints := by
  cases c with
  | moveCutoff cutoff => exact hb
  | register new =>
    rw [change_register]
    cases h : r.register new with
    | error error => exact hb
    | ok r' =>
      obtain ⟨-, hrank, media, -, rfl⟩ := register_eq_ok_iff.mp h
      obtain ⟨e, he, rfl⟩ := mem_breakpoints.mp hb
      exact mem_breakpoints.mpr ⟨e, (mem_entries_add hrank).mpr (.inr he), rfl⟩

/-- What is registered stays registered. -/
lemma mem_breakpoints_after {r : Registry} {b : Breakpoint} (hb : b ∈ r.breakpoints)
    (changes : List Change) : b ∈ (r.after changes).breakpoints := by
  induction changes generalizing r with
  | nil => exact hb
  | cons c changes ih => exact ih (mem_breakpoints_change hb c)

/-- Each clause of a dense variant's predicate is one for dense screens with the feature of its
base's width behind it, and this stays so whatever is done to the registry. -/
theorem pairs_compose {r : Registry} (hr : r.Reachable) {variant : Breakpoint}
    (hvariant : variant ∈ r.breakpoints) {name : String}
    (hpaired : variant.condition = .pairedHiDpi name) :
    ∃ base bound, base.name = name ∧ base.condition = .width bound ∧
      r.ComposesPair variant base bound ∧
      ∀ changes, (r.after changes).ComposesPair variant base bound := by
  obtain ⟨e, he, rfl⟩ := mem_breakpoints.mp hvariant
  obtain ⟨-, base, bound, hresolve, hbound, -, -⟩ := hr.width_of_base he hpaired
  obtain ⟨hbase, rfl⟩ := hr.wellFormed.resolve_eq_ok_iff.mp hresolve
  refine ⟨base, bound, rfl, hbound, hr.composesPair hvariant hbase hpaired hbound, ?_⟩
  intro changes
  exact (hr.after changes).composesPair (mem_breakpoints_after hvariant changes)
    (mem_breakpoints_after hbase changes) hpaired hbound

/-- The base's name is asked for again in vain, and a breakpoint with a width of its own takes
a place between the two. -/
theorem pairs_compose_of_mixed :
    ∃ text, (mixed.after [.register ⟨"wide", 8, .width (.atMost 1)⟩,
        .register ⟨"broad", 3, .width (.atLeast 901)⟩, .moveCutoff (-7)]).predicate "wide2x" =
          .ok text ∧
      Text.pieces ", " text =
        ["only screen and (min-device-pixel-ratio: 1.3) and (min-width: 900px)",
          "only screen and (-webkit-min-device-pixel-ratio: 1.3) and (min-width: 900px)",
          "only screen and (-o-min-device-pixel-ratio: 13/10) and (min-width: 900px)",
          "only screen and (min-resolution: 120dpi) and (min-width: 900px)"] := by
  have hvariant : ⟨"wide2x", 0, .pairedHiDpi "wide"⟩ ∈ mixed.breakpoints := by decide
  obtain ⟨base, bound, hname, hbound, hcomposes, hafter⟩ :=
    pairs_compose mixed_reachable hvariant rfl
  have hresolve := hcomposes.resolve_base
  rw [hname] at hresolve
  obtain rfl : (⟨"wide", 5, .width (.atLeast 900)⟩ : Breakpoint) = base := Except.ok.inj hresolve
  obtain rfl := Condition.width.inj hbound
  obtain ⟨text, htext, -, hpieces⟩ := (hafter _).predicate_variant
  refine ⟨text, htext, ?_⟩
  rw [hpieces, Media.pieces_predicate]
  decide

end MediaSheets.Registry
