import MediaSheets.Proofs.Configurations
import MediaSheets.Proofs.NumberRanges

/-!
# Numbers in configurations

A configuration is read from a text exactly when all numbers in the text are in range. Then
they are the numbers of the configuration, and `UnboundedConfig.ShownBy` says where the
registry that is built from it shows them.
-/

namespace MediaSheets

open Json (Value)
open List (Forall₂)

def UnboundedWidth.feature : UnboundedWidth → String
  | .atLeast px => "min-width: " ++ Json.decimal px ++ "px"
  | .atMost px => "max-width: " ++ Json.decimal px ++ "px"

/-- The numbers of a registry are those of a configuration. -/
structure UnboundedConfig.ShownBy (c : UnboundedConfig) (r : Registry) : Prop where
  cutoff : ∀ rank, c.cutoff = .atRank rank → r.cutoff.toInt = rank
  cutoffName : ∀ name, c.cutoff = .atBreakpoint name →
    ∃ d ∈ c.breakpoints, d.name = name ∧ r.cutoff.toInt = d.rank
  ranks : (r.breakpoints.map fun b => (b.name, b.rank.toInt)).Perm
    (c.breakpoints.map fun d => (d.name, d.rank))
  widths : ∀ d ∈ c.breakpoints, ∀ width, d.width = some width →
    r.predicate d.name = .ok (screenClause [width.feature])
  /-- A dense variant shows the width of its base. -/
  baseWidths : ∀ d ∈ c.breakpoints, ∀ base ∈ c.breakpoints, d.pairedWith = some base.name →
    ∀ width, base.width = some width → r.predicate d.name =
      .ok (", ".intercalate (densityFeatures.map fun density =>
        screenClause [density, width.feature]))

lemma WidthBound.feature_unbounded (bound : WidthBound) :
    bound.unbounded.feature = bound.feature := by
  cases bound <;> rfl

/-! ### The registry of a configuration -/

namespace Declaration

variable {d : Declaration} {b : Breakpoint}

lemma Declares.condition_of_width (h : d.Declares b) {bound : WidthBound}
    (hwidth : d.width = some bound) : b.condition = .width bound := by
  obtain ⟨name, rank, condition⟩ := b
  have hgives : d.Gives condition := h.condition
  cases hgives with
  | width _ hwidth' => rw [Option.some.inj (hwidth'.symm.trans hwidth)]
  | hiDpi _ hnone => exact nomatch hnone.symm.trans hwidth
  | pairedHiDpi _ hnone => exact nomatch hnone.symm.trans hwidth

end Declaration

namespace Cutoff

variable {ds : List Declaration} {cutoff : Cutoff} {rank : Int32}

lemma StandsFor.toInt_eq (h : cutoff.StandsFor ds rank) {n : Int}
    (hn : cutoff.unbounded = .atRank n) : rank.toInt = n := by
  cases h with
  | rank => exact UnboundedCutoff.atRank.inj hn
  | breakpoint => contradiction

lemma StandsFor.exists_declaration (h : cutoff.StandsFor ds rank) {name : String}
    (hname : cutoff.unbounded = .atBreakpoint name) :
    ∃ d ∈ ds, d.name = name ∧ d.rank = rank := by
  cases h with
  | rank => contradiction
  | @breakpoint d hd => exact ⟨d, hd, UnboundedCutoff.atBreakpoint.inj hname, rfl⟩

end Cutoff

namespace Config

variable {c : Config} {r : Registry}

lemma reachable_of_build (h : c.build = .ok r) : r.Reachable := by
  obtain ⟨bs, rank, -, -, hbs⟩ := build_eq_ok_iff_registerAll.mp h
  exact (Registry.Reachable.empty rank).registerAll hbs

lemma exists_entry_of_build (h : c.build = .ok r) :
    ∀ d ∈ c.breakpoints, ∃ e ∈ r.entries, d.Declares e.breakpoint := by
  obtain ⟨bs, rank, hds, -, hbs⟩ := build_eq_ok_iff_registerAll.mp h
  intro d hd
  obtain ⟨i, hi⟩ := List.mem_iff_getElem?.mp hd
  obtain ⟨b, hb, hdeclares⟩ := Declaration.exists_getElem? hds.flip hi
  have hmem := (Registry.mem_breakpoints_of_registerAll hbs).mpr (List.mem_of_getElem? hb)
  obtain ⟨e, he, rfl⟩ := Registry.mem_breakpoints.mp hmem
  exact ⟨e, he, hdeclares⟩

lemma predicate_of_width (h : c.build = .ok r) {d : Declaration} (hd : d ∈ c.breakpoints)
    {bound : WidthBound} (hwidth : d.width = some bound) :
    r.predicate d.name = .ok (screenClause [bound.feature]) := by
  have hr := reachable_of_build h
  obtain ⟨e, he, hdeclares⟩ := exists_entry_of_build h d hd
  have hcondition := hdeclares.condition_of_width hwidth
  rw [← hdeclares.name, hr.wellFormed.predicate_of_mem he, hr.media_of_width he hcondition]
  rfl

lemma predicate_of_base (h : c.build = .ok r) {d base : Declaration} (hd : d ∈ c.breakpoints)
    (hbase : base ∈ c.breakpoints) (hpaired : d.pairedWith = some base.name) {bound : WidthBound}
    (hwidth : base.width = some bound) :
    r.predicate d.name = .ok (", ".intercalate (densityFeatures.map fun density =>
      screenClause [density, bound.feature])) := by
  have hr := reachable_of_build h
  obtain ⟨e, he, hdeclares⟩ := exists_entry_of_build h d hd
  obtain ⟨e', he', hdeclares'⟩ := exists_entry_of_build h base hbase
  have hcondition := hdeclares.condition.eq_pairedHiDpi_iff.mpr hpaired
  rw [← hdeclares'.name] at hcondition
  rw [← hdeclares.name, hr.wellFormed.predicate_of_mem he,
    hr.media_of_pair he he' hcondition (hdeclares'.condition_of_width hwidth)]
  rfl

/-- What is built from a configuration shows its numbers. -/
theorem shownBy_of_build (h : c.build = .ok r) : c.unbounded.ShownBy r := by
  obtain ⟨bs, rank, hds, hrank, hbs⟩ := build_eq_ok_iff_registerAll.mp h
  have hcutoff : r.cutoff = rank := Registry.cutoff_of_registerAll hbs
  have hperm : r.breakpoints.Perm bs := Registry.breakpoints_perm_of_registerAll hbs
  have hranks : bs.map (fun b => (b.name, b.rank.toInt)) =
      c.unbounded.breakpoints.map fun d => (d.name, d.rank) := by
    rw [unbounded, List.map_map]
    refine Declaration.map_eq_map hds fun d b hd => ?_
    rw [hd.name, hd.rank]
    rfl
  constructor
  · intro n hn
    rw [hcutoff]
    exact hrank.toInt_eq hn
  · intro name hname
    obtain ⟨d, hd, hdname, hdrank⟩ := hrank.exists_declaration hname
    refine ⟨d.unbounded, List.mem_map_of_mem hd, hdname, ?_⟩
    rw [hcutoff, ← hdrank]
    rfl
  · rw [← hranks]
    exact hperm.map _
  · intro d hd width hwidth
    obtain ⟨d, hmem, rfl⟩ := List.mem_map.mp hd
    obtain ⟨bound, hbound, rfl⟩ := Option.map_eq_some_iff.mp hwidth
    rw [WidthBound.feature_unbounded]
    exact predicate_of_width h hmem hbound
  · intro d hd base hbase hpaired width hwidth
    obtain ⟨d, hmem, rfl⟩ := List.mem_map.mp hd
    obtain ⟨base, hmem', rfl⟩ := List.mem_map.mp hbase
    obtain ⟨bound, hbound, rfl⟩ := Option.map_eq_some_iff.mp hwidth
    rw [WidthBound.feature_unbounded]
    exact predicate_of_base h hmem hmem' hpaired hbound

end Config

/-- A configuration is read exactly when the numbers that its text says are in range. It has
these numbers then, and so has the registry that is built from it when nothing else is wrong. -/
theorem configuration_numbers_exact {c : UnboundedConfig} {text : String}
    (htext : c.WrittenIn text) :
    ((∃ c', Config.ofJson text = .ok c') ↔ c.InRange) ∧
      (¬c.InRange → ∃ reason, Config.ofJson text = .error (.unreadable reason)) ∧
      ∀ c', Config.ofJson text = .ok c' →
        c'.unbounded = c ∧ (c'.Sound → ∃ r, c'.build = .ok r ∧ c.ShownBy r) := by
  refine ⟨⟨?_, ?_⟩, ?_, ?_⟩
  · rintro ⟨c', h⟩
    exact UnboundedConfig.inRange_of_ofJson htext h
  · intro h
    obtain ⟨c', hc', -⟩ := UnboundedConfig.exists_ofJson_of_inRange htext h
    exact ⟨c', hc'⟩
  · intro h
    cases hread : Json.Reader.ofText Config.record.read text with
    | error fault => exact ⟨fault.message, congrArg _ hread⟩
    | ok c' => exact absurd (UnboundedConfig.inRange_of_ofJson htext (congrArg _ hread)) h
  · intro c' h
    have hrange := UnboundedConfig.inRange_of_ofJson htext h
    obtain ⟨c'', hc'', rfl⟩ := UnboundedConfig.exists_ofJson_of_inRange htext hrange
    obtain rfl := Except.ok.inj (hc''.symm.trans h)
    refine ⟨rfl, fun hsound => ?_⟩
    obtain ⟨r, hr⟩ := Config.exists_build_iff.mpr hsound
    exact ⟨r, hr, Config.shownBy_of_build hr⟩

/-- A rank and a width at the upper ends of their ranges, under some cutoff. -/
def UnboundedConfig.extreme (cutoff : Int) : UnboundedConfig where
  cutoff := .atRank cutoff
  breakpoints := [⟨"wide", 2147483647, .baseWidth, some (.atLeast 4294967295), none⟩,
    ⟨"wide2x", 0, .widthHiDpi, none, some "wide"⟩]

def extremeValue (cutoff : Int) : Value :=
  .object [("cutoff", .integer cutoff), ("breakpoints", .list [
    .object [("name", .text "wide"), ("rank", .integer 2147483647), ("kind", .text "base-width"),
      ("width", .object [("min-width", .integer 4294967295)])],
    .object [("name", .text "wide2x"), ("rank", .integer 0), ("kind", .text "width-hi-dpi"),
      ("paired_with", .text "wide")]])]

lemma UnboundedConfig.extreme_writtenIn (cutoff : Int) :
    (extreme cutoff).WrittenIn (extremeValue cutoff).compact := by
  have hwide : UnboundedDeclaration.LaidOutAs
      ⟨"wide", 2147483647, .baseWidth, some (.atLeast 4294967295), none⟩ _ :=
    .members (.written _) .leftOut (.refl _)
  have hwide2x : UnboundedDeclaration.LaidOutAs
      ⟨"wide2x", 0, .widthHiDpi, none, some "wide"⟩ _ :=
    .members .leftOut (.written _) (.refl _)
  have hextreme : (extreme cutoff).LaidOutAs (extremeValue cutoff) :=
    .members (.cons hwide (.cons hwide2x .nil)) (.refl _)
  exact ⟨_, hextreme, Value.writtenIn_compact _⟩

/-- The lowest cutoff is read and built, and one above the highest is refused. -/
theorem extreme_numbers_exact :
    (∃ c r, Config.ofJson (extremeValue (-2147483648)).compact = .ok c ∧ c.build = .ok r ∧
      (UnboundedConfig.extreme (-2147483648)).ShownBy r) ∧
      ∃ reason, Config.ofJson (extremeValue 2147483648).compact = .error (.unreadable reason) := by
  have hlow := configuration_numbers_exact (UnboundedConfig.extreme_writtenIn (-2147483648))
  have hhigh := configuration_numbers_exact (UnboundedConfig.extreme_writtenIn 2147483648)
  constructor
  · have hread : Config.ofJson (extremeValue (-2147483648)).compact = .ok
        ⟨.atRank Int32.minValue,
          [⟨"wide", Int32.maxValue, .baseWidth, some (.atLeast 4294967295), none⟩,
            ⟨"wide2x", 0, .widthHiDpi, none, some "wide"⟩]⟩ :=
      Config.ofJson_of_writtenIn (UnboundedConfig.extreme_writtenIn _)
    obtain ⟨r, hr, hshown⟩ := (hlow.2.2 _ hread).2 (Config.exists_build_iff.mp ⟨_, rfl⟩)
    exact ⟨_, r, hread, hr, hshown⟩
  · apply hhigh.2.1
    intro hrange
    have hcutoff : InInt32 2147483648 := hrange.cutoff
    exact absurd hcutoff.2 (by decide)

end MediaSheets
