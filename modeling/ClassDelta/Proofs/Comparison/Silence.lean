import ClassDelta.Proofs.Comparison.Outcomes
import ClassDelta.Proofs.Report.ExitCode

/-!
# When a comparison has nothing to say

The exit code 0 says that there is nothing to show, and this comes down to the
classes one by one.  `Unchanged` is what it takes for one of them, given its
bytes on the sides it is on, and `Settles.eq_compared_nil_iff` that nothing else
makes its entry an empty one.

The main statement is `Comparison.exitCode_summary_and_rendering`.
-/

namespace ClassDelta

/-- There is nothing to report on a class with these bytes on its sides: all of
them can be read, and the versions do not differ, or the class is on one side
only, but synthetic, and synthetics are left out. -/
inductive Unchanged (settings : Settings) : (old new : Option Bytes) → Prop
  | both {old new : Bytes} {oldInfo newInfo : ClassInfo}
      (hold : ClassInfo.parse settings.supported old = .ok oldInfo)
      (hnew : ClassInfo.parse settings.supported new = .ok newInfo)
      (hsame : (ClassifiedClass.ofInfo oldInfo).changes settings.includeSynthetics
        (.ofInfo newInfo) = []) :
    Unchanged settings (some old) (some new)
  | onlyOld {old : Bytes} {info : ClassInfo}
      (hold : ClassInfo.parse settings.supported old = .ok info)
      (hsynthetic : info.isSynthetic = true) (hleftOut : settings.includeSynthetics = false) :
    Unchanged settings (some old) none
  | onlyNew {new : Bytes} {info : ClassInfo}
      (hnew : ClassInfo.parse settings.supported new = .ok info)
      (hsynthetic : info.isSynthetic = true) (hleftOut : settings.includeSynthetics = false) :
    Unchanged settings none (some new)

namespace ClassifiedClass

variable (includeSynthetics : Bool) (info : ClassInfo)

theorem isListed_ofInfo :
    (ofInfo info).classifications.ofClass.isListed includeSynthetics = false ↔
      info.isSynthetic = true ∧ includeSynthetics = false := by
  cases hsynthetic : info.isSynthetic <;> cases includeSynthetics <;>
    simp [ofInfo, Classifications.ofInfo, hsynthetic, Classification.isListed,
      Classification.isSourceDeclared]

theorem removalChanges_eq_nil_iff :
    (ofInfo info).removalChanges includeSynthetics = [] ↔
      info.isSynthetic = true ∧ includeSynthetics = false := by
  rw [← isListed_ofInfo, removalChanges]
  simp

theorem additionChanges_eq_nil_iff :
    (ofInfo info).additionChanges includeSynthetics = [] ↔
      info.isSynthetic = true ∧ includeSynthetics = false := by
  rw [← isListed_ofInfo, additionChanges]
  simp

end ClassifiedClass

/-- An entry is empty for unchanged classes, and for no others. -/
theorem Settles.eq_compared_nil_iff {settings : Settings} {old new : Option Bytes}
    {outcome : Outcome} (h : Settles settings old new outcome) :
    outcome = .compared [] ↔ Unchanged settings old new := by
  cases h with
  | oldFails hold =>
    refine ⟨(nomatch ·), fun hunchanged => ?_⟩
    cases hunchanged with
    | both hold' | onlyOld hold' =>
      rw [hold] at hold'
      cases hold'
  | newFails _ hnew =>
    refine ⟨(nomatch ·), fun hunchanged => ?_⟩
    cases hunchanged with
    | both _ hnew' | onlyNew hnew' =>
      rw [hnew] at hnew'
      cases hnew'
  | both hold hnew =>
    rw [Outcome.compared.injEq]
    refine ⟨.both hold hnew, fun hunchanged => ?_⟩
    cases hunchanged with
    | both hold' hnew' hsame =>
      rw [hold] at hold'
      rw [hnew] at hnew'
      cases hold'
      cases hnew'
      exact hsame
  | removed hold =>
    rw [Outcome.compared.injEq, ClassifiedClass.removalChanges_eq_nil_iff]
    refine ⟨fun hsilent => .onlyOld hold hsilent.1 hsilent.2, fun hunchanged => ?_⟩
    cases hunchanged with
    | onlyOld hold' hsynthetic hleftOut =>
      rw [hold] at hold'
      cases hold'
      exact ⟨hsynthetic, hleftOut⟩
  | added hnew =>
    rw [Outcome.compared.injEq, ClassifiedClass.additionChanges_eq_nil_iff]
    refine ⟨fun hsilent => .onlyNew hnew hsilent.1 hsilent.2, fun hunchanged => ?_⟩
    cases hunchanged with
    | onlyNew hnew' hsynthetic hleftOut =>
      rw [hnew] at hnew'
      cases hnew'
      exact ⟨hsynthetic, hleftOut⟩

namespace Comparison

theorem exitCode_report_eq_zero_iff (settings : Settings) (old new : List NamedClass) :
    (report settings old new).exitCode = 0 ↔
      ∀ name : String, name ∈ old.map NamedClass.name ∨ name ∈ new.map NamedClass.name →
        Unchanged settings (NamedClass.find? name old) (NamedClass.find? name new) := by
  rw [Report.exitCode_eq_zero_iff, report_eq, Job.ofClasses_eq, List.map_map, List.forall_mem_map]
  simp only [Job.mem_names_iff]
  refine forall_congr' fun name => imp_congr_right fun hname => ?_
  exact (Job.settles_outcome settings
    (Job.isEmpty_named_eq_false_iff.2 hname)).eq_compared_nil_iff

/-- The summary of a report counts its entries by their outcomes.  Its exit code
is 2 if a class could not be compared, otherwise 1 if one has changed, and 0 if
there is nothing to show.  For the report on two lists of classes that is when
every class of a name in them is unchanged, of several with the same name the
first one. -/
theorem exitCode_summary_and_rendering :
    (∀ report : Report,
      (report.summary.compared + report.summary.failed + report.summary.incomplete =
          report.entries.length ∧
        report.summary.changed = report.changedClasses.length ∧
        report.summary.failed = report.failures.length) ∧
      (report.exitCode = 2 ↔ ∃ entry ∈ report.entries,
        (∃ side error, entry.outcome = .failed side error) ∨ entry.outcome = .incomplete) ∧
      (report.exitCode = 1 ↔ report.exitCode ≠ 2 ∧ ∃ entry ∈ report.entries, ∃ changes,
        entry.outcome = .compared changes ∧ changes ≠ []) ∧
      ∀ colours : Bool, report.exitCode = 0 ↔ report.render .changes colours = "") ∧
    ∀ (settings : Settings) (old new : List NamedClass),
      (report settings old new).exitCode = 0 ↔
        ∀ name : String, name ∈ old.map NamedClass.name ∨ name ∈ new.map NamedClass.name →
          Unchanged settings (NamedClass.find? name old) (NamedClass.find? name new) := by
  constructor
  · intro report
    refine ⟨report.summary_counts, report.exitCode_eq_two_iff, report.exitCode_eq_one_iff,
      fun colours => ?_⟩
    rw [report.exitCode_eq_zero_iff, report.render_changes_eq_empty_iff]
  · exact exitCode_report_eq_zero_iff

end Comparison

end ClassDelta
