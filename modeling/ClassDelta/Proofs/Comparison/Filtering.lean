import ClassDelta.Proofs.Comparison.Collecting
import ClassDelta.Proofs.Comparison.Matching
import ClassDelta.Proofs.Diff.Filtering
import Mathlib.Data.List.Forall2

/-!
# Reports without synthetics

Whether synthetics are asked for decides which changes of a class are listed
(`Change.isDeclared`), and nothing else: the same classes are matched, and the
same files are read and cannot be read.  So the report without synthetics has
the entries of the one with them, and what it says of a class, that one says as
well (`Outcome.Narrows`).

The main statement is `Comparison.changes_and_report_without_synthetics`.
-/

namespace ClassDelta

/-- An outcome lists a part of the changes of another one.  Failures are the same
in both. -/
structure Outcome.Narrows (narrow wide : Outcome) : Prop where
  failed : ∀ (side : Side) (error : ParseError),
    narrow = .failed side error ↔ wide = .failed side error
  compared : ∀ changes : List Change, narrow = .compared changes →
    ∃ all : List Change, wide = .compared all ∧ changes.Sublist all
  changed : narrow.isChanged = true → wide.isChanged = true

theorem Outcome.narrows_compared {changes all : List Change} (h : changes.Sublist all) :
    (compared changes).Narrows (compared all) where
  failed := by simp
  compared := by
    intro found heq
    cases heq
    exact ⟨all, rfl, h⟩
  changed := by
    simp only [isChanged, Bool.not_eq_true', List.isEmpty_eq_false_iff]
    rintro hsome rfl
    exact hsome (List.sublist_nil.1 h)

theorem Outcome.narrows_failed (side : Side) (error : ParseError) :
    (failed side error).Narrows (failed side error) where
  failed := fun _ _ => Iff.rfl
  compared := fun _ heq => nomatch heq
  changed := fun h => h

namespace Job

/-- A job lists a part of its changes, or fails in the same way. -/
theorem changes_withoutSynthetics (settings : Settings) (job : Job) :
    ∃ keep : Change → Bool, job.changes { settings with includeSynthetics := false } =
      (job.changes { settings with includeSynthetics := true }).map (List.filter keep) := by
  obtain ⟨name, old, new⟩ := job
  rcases old with _ | old
  · rcases new with _ | new
    · exact ⟨fun _ => true, rfl⟩
    · simp only [changes]
      rcases parseSide settings.supported .new new with _ | new
      · exact ⟨fun _ => true, rfl⟩
      · exact ⟨Change.isDeclared new new,
          congrArg Except.ok (ClassifiedClass.additionChanges_false new new)⟩
  · rcases new with _ | new
    · simp only [changes]
      rcases parseSide settings.supported .old old with _ | old
      · exact ⟨fun _ => true, rfl⟩
      · exact ⟨Change.isDeclared old old,
          congrArg Except.ok (ClassifiedClass.removalChanges_false old old)⟩
    · simp only [changes]
      rcases parseSide settings.supported .old old with _ | old
      · exact ⟨fun _ => true, rfl⟩
      · rcases parseSide settings.supported .new new with _ | new
        · exact ⟨fun _ => true, rfl⟩
        · exact ⟨Change.isDeclared old new,
            congrArg Except.ok (ClassifiedClass.changes_false old new)⟩

theorem outcome_narrows (settings : Settings) (job : Job) :
    (job.outcome { settings with includeSynthetics := false }).Narrows
      (job.outcome { settings with includeSynthetics := true }) := by
  obtain ⟨keep, hchanges⟩ := changes_withoutSynthetics settings job
  rw [outcome, outcome, hchanges]
  cases job.changes { settings with includeSynthetics := true } with
  | error failure => exact Outcome.narrows_failed failure.1 failure.2
  | ok all => exact Outcome.narrows_compared List.filter_sublist

end Job

namespace Comparison

/-- Without synthetics exactly the changes to declared subjects are listed, as
they are and in the same order.  The report has the same names in the same
order then, the same failures, and no class has changed that has not changed
with synthetics. -/
theorem changes_and_report_without_synthetics :
    (∀ old new : ClassifiedClass,
      old.changes false new = (old.changes true new).filter (Change.isDeclared old new) ∧
      new.additionChanges false =
        (new.additionChanges true).filter (Change.isDeclared old new) ∧
      old.removalChanges false =
        (old.removalChanges true).filter (Change.isDeclared old new)) ∧
    ∀ (settings : Settings) (old new : List NamedClass),
      List.Forall₂ (fun narrow wide => narrow.name = wide.name ∧
          narrow.outcome.Narrows wide.outcome)
        (report { settings with includeSynthetics := false } old new).entries
        (report { settings with includeSynthetics := true } old new).entries := by
  refine ⟨fun old new => ⟨?_, ?_, ?_⟩, fun settings old new => ?_⟩
  · exact ClassifiedClass.changes_false old new
  · exact ClassifiedClass.additionChanges_false old new
  · exact ClassifiedClass.removalChanges_false old new
  · rw [report_eq, report_eq, List.forall₂_map_left_iff, List.forall₂_map_right_iff,
      List.forall₂_same]
    exact fun job _ => ⟨rfl, Job.outcome_narrows settings job⟩

end Comparison

end ClassDelta
