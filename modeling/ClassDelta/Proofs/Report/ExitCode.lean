import ClassDelta.Report.Render

/-!
# What a report comes to

A report is gone through several times: to count outcomes, to list failures, to
show what has changed, and to condense it all into an exit code.  All of these
sort the entries in the same way.

* `Report.summary_counts` says what the numbers in a summary count.
* `Report.exitCode_cases` is the exit code in terms of these numbers;
  `Report.exitCode_eq_two_iff`, `Report.exitCode_eq_one_iff` and
  `Report.exitCode_eq_zero_iff` read it off the entries.
* `Report.render_changes_eq_empty_iff` says when a report has nothing to show,
  which is when the exit code is 0.
-/

namespace ClassDelta

/-! ## Counting -/

namespace Report

/-- The classes that have changed, each with its changes. -/
def changedClasses (report : Report) : List (String × List Change) :=
  report.entries.filterMap fun entry =>
    match entry.outcome with
    | .compared (first :: later) => some (entry.name, first :: later)
    | .compared [] | .failed _ _ | .incomplete => none

variable (report : Report)

theorem countP_outcomes (entries : List Entry) :
    (entries.countP fun entry => entry.outcome.isCompared) +
      (entries.countP fun entry => entry.outcome.isFailed) +
      (entries.countP fun entry => entry.outcome.isIncomplete) = entries.length := by
  induction entries with
  | nil => rfl
  | cons entry later ih =>
    have hone : (if entry.outcome.isCompared then 1 else 0) +
        (if entry.outcome.isFailed then 1 else 0) +
        (if entry.outcome.isIncomplete then 1 else 0) = 1 := by
      cases entry.outcome <;> rfl
    simp only [List.countP_cons, List.length_cons]
    omega

/-- Every entry is counted under its outcome.  Changes are counted where there
are any, and failures as often as they are listed. -/
theorem summary_counts :
    report.summary.compared + report.summary.failed + report.summary.incomplete =
        report.entries.length ∧
      report.summary.changed = report.changedClasses.length ∧
      report.summary.failed = report.failures.length := by
  refine ⟨countP_outcomes report.entries, ?_, ?_⟩
  · rw [changedClasses, List.length_filterMap_eq_countP]
    refine List.countP_congr fun entry _ => ?_
    rcases entry with ⟨name, (_ | _) | _ | _⟩ <;> simp [Outcome.isChanged]
  · rw [failures, List.length_filterMap_eq_countP]
    refine List.countP_congr fun entry _ => ?_
    rcases entry with ⟨name, _ | _ | _⟩ <;> simp [Outcome.isFailed]

/-! ## Exit codes -/

/-- Some class could not be compared. -/
theorem exists_unsettled_iff :
    (0 < report.summary.failed ∨ 0 < report.summary.incomplete) ↔ ∃ entry ∈ report.entries,
      (∃ side error, entry.outcome = .failed side error) ∨ entry.outcome = .incomplete := by
  have hfailed (outcome : Outcome) :
      outcome.isFailed = true ↔ ∃ side error, outcome = .failed side error := by
    cases outcome <;> simp [Outcome.isFailed]
  have hincomplete (outcome : Outcome) : outcome.isIncomplete = true ↔ outcome = .incomplete := by
    cases outcome <;> simp [Outcome.isIncomplete]
  simp only [summary, List.countP_pos_iff, hfailed, hincomplete]
  constructor
  · rintro (⟨entry, hmem, h⟩ | ⟨entry, hmem, h⟩)
    · exact ⟨entry, hmem, .inl h⟩
    · exact ⟨entry, hmem, .inr h⟩
  · rintro ⟨entry, hmem, h | h⟩
    · exact .inl ⟨entry, hmem, h⟩
    · exact .inr ⟨entry, hmem, h⟩

/-- Some class has been compared and has changed. -/
theorem exists_changed_iff :
    0 < report.summary.changed ↔ ∃ entry ∈ report.entries, ∃ changes,
      entry.outcome = .compared changes ∧ changes ≠ [] := by
  have hchanged (outcome : Outcome) : outcome.isChanged = true ↔
      ∃ changes, outcome = .compared changes ∧ changes ≠ [] := by
    cases outcome <;> simp [Outcome.isChanged]
  simp only [summary, List.countP_pos_iff, hchanged]

/-- An exit code and the counts that it stands for. -/
theorem exitCode_cases :
    ((0 < report.summary.failed ∨ 0 < report.summary.incomplete) ∧ report.exitCode = 2) ∨
      (¬ (0 < report.summary.failed ∨ 0 < report.summary.incomplete) ∧
        0 < report.summary.changed ∧ report.exitCode = 1) ∨
      (¬ (0 < report.summary.failed ∨ 0 < report.summary.incomplete) ∧
        ¬ 0 < report.summary.changed ∧ report.exitCode = 0) := by
  unfold exitCode
  simp only [Bool.or_eq_true, decide_eq_true_eq]
  split
  · rename_i hunsettled
    exact .inl ⟨hunsettled, rfl⟩
  · rename_i hsettled
    split
    · rename_i hchanged
      exact .inr (.inl ⟨hsettled, hchanged, rfl⟩)
    · rename_i hunchanged
      exact .inr (.inr ⟨hsettled, hunchanged, rfl⟩)

theorem exitCode_eq_two_iff :
    report.exitCode = 2 ↔ ∃ entry ∈ report.entries,
      (∃ side error, entry.outcome = .failed side error) ∨ entry.outcome = .incomplete := by
  rw [← exists_unsettled_iff]
  rcases report.exitCode_cases with ⟨hunsettled, hcode⟩ | ⟨hsettled, -, hcode⟩ |
    ⟨hsettled, -, hcode⟩
  · simp [hunsettled, hcode]
  · simp [hsettled, hcode]
  · simp [hsettled, hcode]

theorem exitCode_eq_one_iff :
    report.exitCode = 1 ↔ report.exitCode ≠ 2 ∧ ∃ entry ∈ report.entries, ∃ changes,
      entry.outcome = .compared changes ∧ changes ≠ [] := by
  rw [← exists_changed_iff]
  rcases report.exitCode_cases with ⟨-, hcode⟩ | ⟨-, hchanged, hcode⟩ | ⟨-, hunchanged, hcode⟩
  · simp [hcode]
  · simp [hchanged, hcode]
  · simp [hunchanged, hcode]

/-- The exit code is 0 when every class was compared and none has changed. -/
theorem exitCode_eq_zero_iff :
    report.exitCode = 0 ↔ ∀ entry ∈ report.entries, entry.outcome = .compared [] := by
  have hcounts : report.exitCode = 0 ↔
      ¬ (0 < report.summary.failed ∨ 0 < report.summary.incomplete) ∧
        ¬ 0 < report.summary.changed := by
    rcases report.exitCode_cases with ⟨hunsettled, hcode⟩ | ⟨-, hchanged, hcode⟩ |
      ⟨hsettled, hunchanged, hcode⟩
    · simp [hunsettled, hcode]
    · simp [hchanged, hcode]
    · simp [hsettled, hunchanged, hcode]
  rw [hcounts, exists_unsettled_iff, exists_changed_iff]
  constructor
  · rintro ⟨hsettled, hunchanged⟩ entry hmem
    cases houtcome : entry.outcome with
    | compared changes =>
      cases changes with
      | nil => rfl
      | cons change later =>
        exact absurd ⟨entry, hmem, change :: later, houtcome, List.cons_ne_nil _ _⟩ hunchanged
    | failed side error => exact absurd ⟨entry, hmem, .inl ⟨side, error, houtcome⟩⟩ hsettled
    | incomplete => exact absurd ⟨entry, hmem, .inr houtcome⟩ hsettled
  · intro hall
    constructor
    · rintro ⟨entry, hmem, ⟨side, error, houtcome⟩ | houtcome⟩
      · rw [hall entry hmem] at houtcome
        cases houtcome
      · rw [hall entry hmem] at houtcome
        cases houtcome
    · rintro ⟨entry, hmem, changes, houtcome, hsome⟩
      rw [hall entry hmem] at houtcome
      cases houtcome
      exact hsome rfl

end Report

/-! ## What is shown -/

namespace StyledText

variable (colours : Bool)

theorem render_append (first second : StyledText) :
    render colours (first ++ second) = render colours first ++ render colours second := by
  cases colours <;> simp [render, plain, ansi, String.join_append]

/-- A text that shows nothing has no text in it. -/
theorem eq_empty_of_render_eq_empty {content : StyledText} (h : content.render colours = "")
    {shown : String} (hmem : .text shown ∈ content) : shown = "" := by
  obtain ⟨before, after, rfl⟩ := List.append_of_mem hmem
  rw [render_append, String.append_eq_empty_iff, ← List.singleton_append, render_append,
    String.append_eq_empty_iff] at h
  have hshown : render colours [.text shown] = shown := by
    cases colours <;> simp [render, plain, ansi, StyledPiece.plain, StyledPiece.ansi, String.join]
  rw [← hshown]
  exact h.2.1

end StyledText

/-- Every entry shows something, but for a class that was compared and has no
changes. -/
theorem Entry.render_changeLines_eq_empty_iff (colours : Bool) (entry : Entry) :
    entry.changeLines.render colours = "" ↔ entry.outcome = .compared [] := by
  obtain ⟨name, outcome⟩ := entry
  constructor
  · intro h
    have hnone {shown : String} (hmem : .text shown ∈ changeLines ⟨name, outcome⟩) : shown = "" :=
      StyledText.eq_empty_of_render_eq_empty colours h hmem
    rcases outcome with (_ | ⟨change, later⟩) | ⟨side, error⟩ | _
    · rfl
    · have hline : "\n" = "" := hnone (by simp [changeLines])
      exact absurd hline (by decide)
    · have hmessage : " failed to parse " ++ side.text ++ " class: " ++ error.message ++ "\n" = "" :=
        hnone (by simp [changeLines, StyledText.styled])
      rw [String.append_eq_empty_iff] at hmessage
      exact absurd hmessage.2 (by decide)
    · have hmessage : " comparison did not finish\n" = "" :=
        hnone (by simp [changeLines, StyledText.styled])
      exact absurd hmessage (by decide)
  · rintro rfl
    cases colours <;> rfl

theorem StyledText.render_flatMap_eq_empty_iff {α : Type} (colours : Bool)
    (lines : α → StyledText) (list : List α) :
    render colours (list.flatMap lines) = "" ↔
      ∀ element ∈ list, render colours (lines element) = "" := by
  induction list with
  | nil => cases colours <;> simp [render, plain, ansi, String.join]
  | cons first later ih =>
    rw [List.flatMap_cons, render_append, String.append_eq_empty_iff, ih, List.forall_mem_cons]

/-- A report shows nothing when every class was compared and none has changed. -/
theorem Report.render_changes_eq_empty_iff (report : Report) (colours : Bool) :
    report.render .changes colours = "" ↔
      ∀ entry ∈ report.entries, entry.outcome = .compared [] := by
  simp only [render, styled, StyledText.render_flatMap_eq_empty_iff,
    Entry.render_changeLines_eq_empty_iff]

end ClassDelta
