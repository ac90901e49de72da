import MediaSheets.Config
import Mathlib.Init

/-!
# Declarations

A declaration has one field too many or too few, or it declares one breakpoint.
`Declaration.Fits` says which fields belong to a kind, and `Declaration.Misfit` what is
wrong with others: a field that is needed comes first, and then one that is not taken.
-/

namespace MediaSheets
namespace Declaration

/-- The fields that the kind requires are given, and no others. -/
def Fits (d : Declaration) : Prop :=
  match d.kind with
  | .baseWidth => d.width ≠ none ∧ d.pairedWith = none
  | .hiDpi => d.width = none ∧ d.pairedWith = none
  | .widthHiDpi => d.width = none ∧ d.pairedWith ≠ none

/-- The first thing that is wrong with the fields. -/
inductive Misfit (d : Declaration) : String → Prop
  | needsWidth (hkind : d.kind = .baseWidth) (hwidth : d.width = none) :
      Misfit d "base-width needs `width`"
  | needsBase (hkind : d.kind = .widthHiDpi) (hbase : d.pairedWith = none) :
      Misfit d "width-hi-dpi needs `paired_with`"
  | takesNoWidth (hkind : d.kind ≠ .baseWidth) (hwidth : d.width ≠ none)
      (hneeded : d.kind = .widthHiDpi → d.pairedWith ≠ none) :
      Misfit d (d.kind.name ++ " does not take `width`")
  | takesNoBase (hkind : d.kind ≠ .widthHiDpi) (hbase : d.pairedWith ≠ none)
      (hneeded : d.kind = .baseWidth ↔ d.width ≠ none) :
      Misfit d (d.kind.name ++ " does not take `paired_with`")

/-- The condition that the fields give. -/
inductive Gives (d : Declaration) : Condition → Prop
  | width {bound : WidthBound} (hkind : d.kind = .baseWidth) (hwidth : d.width = some bound)
      (hbase : d.pairedWith = none) : Gives d (.width bound)
  | hiDpi (hkind : d.kind = .hiDpi) (hwidth : d.width = none) (hbase : d.pairedWith = none) :
      Gives d .hiDpi
  | pairedHiDpi {base : String} (hkind : d.kind = .widthHiDpi) (hwidth : d.width = none)
      (hbase : d.pairedWith = some base) : Gives d (.pairedHiDpi base)

/-- A breakpoint with the name, the rank and the condition of a declaration. -/
structure Declares (d : Declaration) (b : Breakpoint) : Prop where
  name : b.name = d.name
  rank : b.rank = d.rank
  condition : d.Gives b.condition

lemma condition_eq_ok_iff {d : Declaration} {condition : Condition} :
    d.condition = .ok condition ↔ d.Gives condition := by
  constructor
  · intro h
    unfold Declaration.condition at h
    split at h
    all_goals first | contradiction | obtain rfl := Except.ok.inj h
    · exact .width ‹_› ‹_› ‹_›
    · exact .hiDpi ‹_› ‹_› ‹_›
    · exact .pairedHiDpi ‹_› ‹_› ‹_›
  · rintro (⟨hkind, hwidth, hbase⟩ | ⟨hkind, hwidth, hbase⟩ | ⟨hkind, hwidth, hbase⟩)
    all_goals simp only [Declaration.condition, hkind, hwidth, hbase]

lemma exists_gives_iff {d : Declaration} : (∃ condition, d.Gives condition) ↔ d.Fits := by
  constructor
  · rintro ⟨_, hgives⟩
    cases hgives with
    | width hkind hwidth hbase => simp [Fits, hkind, hwidth, hbase]
    | hiDpi hkind hwidth hbase => simp [Fits, hkind, hwidth, hbase]
    | pairedHiDpi hkind hwidth hbase => simp [Fits, hkind, hwidth, hbase]
  · intro h
    unfold Fits at h
    split at h
    · obtain ⟨bound, hwidth⟩ := Option.ne_none_iff_exists'.mp h.1
      exact ⟨_, .width ‹_› hwidth h.2⟩
    · exact ⟨_, .hiDpi ‹_› h.1 h.2⟩
    · obtain ⟨base, hbase⟩ := Option.ne_none_iff_exists'.mp h.2
      exact ⟨_, .pairedHiDpi ‹_› h.1 hbase⟩

lemma fits_or_misfit (d : Declaration) : d.Fits ∨ ∃ reason, d.Misfit reason := by
  unfold Fits
  by_cases hwidth : d.width = none
  · cases hkind : d.kind with
    | baseWidth => exact .inr ⟨_, .needsWidth hkind hwidth⟩
    | hiDpi =>
      by_cases hbase : d.pairedWith = none
      · exact .inl ⟨hwidth, hbase⟩
      · exact .inr ⟨_, .takesNoBase (by simp [hkind]) hbase (by simp [hkind, hwidth])⟩
    | widthHiDpi =>
      by_cases hbase : d.pairedWith = none
      · exact .inr ⟨_, .needsBase hkind hbase⟩
      · exact .inl ⟨hwidth, hbase⟩
  · cases hkind : d.kind with
    | baseWidth =>
      by_cases hbase : d.pairedWith = none
      · exact .inl ⟨hwidth, hbase⟩
      · exact .inr ⟨_, .takesNoBase (by simp [hkind]) hbase (by simp [hkind, hwidth])⟩
    | hiDpi => exact .inr ⟨_, .takesNoWidth (by simp [hkind]) hwidth (by simp [hkind])⟩
    | widthHiDpi =>
      by_cases hbase : d.pairedWith = none
      · exact .inr ⟨_, .needsBase hkind hbase⟩
      · exact .inr ⟨_, .takesNoWidth (by simp [hkind]) hwidth fun _ => hbase⟩

lemma condition_of_misfit {d : Declaration} {reason : String} (h : d.Misfit reason) :
    d.condition = .error reason := by
  cases h with
  | needsWidth hkind hwidth => simp only [Declaration.condition, hkind, hwidth]
  | needsBase hkind hbase => simp only [Declaration.condition, hkind, hbase]
  | takesNoWidth hne hwidth hneeded =>
    obtain ⟨bound, hbound⟩ := Option.ne_none_iff_exists'.mp hwidth
    cases hkind : d.kind with
    | baseWidth => exact absurd hkind hne
    | hiDpi =>
      simp only [Declaration.condition, hkind, hbound]
      rfl
    | widthHiDpi =>
      obtain ⟨base, hbase⟩ := Option.ne_none_iff_exists'.mp (hneeded hkind)
      simp only [Declaration.condition, hkind, hbound, hbase]
      rfl
  | takesNoBase hne hbase hneeded =>
    obtain ⟨base, hpaired⟩ := Option.ne_none_iff_exists'.mp hbase
    cases hkind : d.kind with
    | baseWidth =>
      obtain ⟨bound, hbound⟩ := Option.ne_none_iff_exists'.mp (hneeded.mp hkind)
      simp only [Declaration.condition, hkind, hbound, hpaired]
      rfl
    | hiDpi =>
      have hwidth : d.width = none := by simpa [hkind] using hneeded
      simp only [Declaration.condition, hkind, hwidth, hpaired]
      rfl
    | widthHiDpi => exact absurd hkind hne

lemma condition_eq_error_iff {d : Declaration} {reason : String} :
    d.condition = .error reason ↔ d.Misfit reason := by
  constructor
  · intro h
    rcases d.fits_or_misfit with hfits | ⟨reason', hmisfit⟩
    · obtain ⟨condition, hgives⟩ := exists_gives_iff.mpr hfits
      rw [condition_eq_ok_iff.mpr hgives] at h
      contradiction
    · rw [condition_of_misfit hmisfit] at h
      obtain rfl := Except.error.inj h
      exact hmisfit
  · exact condition_of_misfit

lemma Gives.not_misfit {d : Declaration} {condition : Condition} (h : d.Gives condition)
    {reason : String} : ¬d.Misfit reason := by
  intro hmisfit
  have hok := condition_eq_ok_iff.mpr h
  rw [condition_of_misfit hmisfit] at hok
  contradiction

/-! ### Conversion -/

lemma toBreakpoint_eq_ok_iff {d : Declaration} {b : Breakpoint} :
    d.toBreakpoint = .ok b ↔ d.Declares b := by
  constructor
  · intro h
    unfold toBreakpoint at h
    split at h
    next condition hcondition =>
      obtain rfl := Except.ok.inj h
      exact ⟨rfl, rfl, condition_eq_ok_iff.mp hcondition⟩
    next => contradiction
  · rintro ⟨hname, hrank, hgives⟩
    have hcondition := condition_eq_ok_iff.mpr hgives
    simp only [toBreakpoint, hcondition, ← hname, ← hrank]

lemma toBreakpoint_eq_error_iff {d : Declaration} {error : AuthoringError} :
    d.toBreakpoint = .error error ↔
      ∃ reason, d.Misfit reason ∧ error = .invalidBreakpoint d.name reason := by
  unfold toBreakpoint
  simp only [← condition_eq_error_iff]
  cases d.condition with
  | ok condition => simp
  | error reason => simp [eq_comm]

lemma Gives.kind_eq {d : Declaration} {condition : Condition} (h : d.Gives condition) :
    condition.kind = d.kind := by
  cases h with
  | width hkind => exact hkind.symm
  | hiDpi hkind => exact hkind.symm
  | pairedHiDpi hkind => exact hkind.symm

lemma Gives.eq_pairedHiDpi_iff {d : Declaration} {condition : Condition} (h : d.Gives condition)
    {base : String} : condition = .pairedHiDpi base ↔ d.pairedWith = some base := by
  cases h with
  | width _ _ hbase => simp [hbase]
  | hiDpi _ _ hbase => simp [hbase]
  | pairedHiDpi _ _ hbase => simp [hbase]

end Declaration
end MediaSheets
