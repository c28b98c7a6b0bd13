import ClassDelta.Proofs.Diff.Mirror

/-!
# Leaving out synthetics

The same changes are found whether synthetics are asked for or not, and in the
same order.  The only difference is which of them are listed, and this can be
seen from a change itself: `Change.isDeclared` looks at the classification of
what is new or gone, and at both classifications of what has been modified.

The condition is asked in five places, each time of other classifications.  One
lemma for each of them says that it comes to this one condition, and
`ClassifiedClass.changes_false` is the whole: what is listed without synthetics
is the part of the full list that fulfils it.
-/

namespace ClassDelta

/-- The subject of the change is declared in the source code: after the change
if it is new, before it if it is gone, and on one side or the other if it has
been modified. -/
def Change.isDeclared (old new : ClassifiedClass) : Change → Bool
  | added _ classification | removed _ classification => classification.isSourceDeclared
  | modified before after _ _ =>
    (old.classifySubject before).isSourceDeclared || (new.classifySubject after).isSourceDeclared

namespace ClassifiedClass

variable (old new : ClassifiedClass)

theorem headerChanges_false :
    headerChanges false old new =
      (headerChanges true old new).filter (Change.isDeclared old new) := by
  unfold headerChanges
  simp only [Classification.isListed_true, Bool.true_or, if_true]
  split
  · rfl
  · rw [List.filter_cons, List.filter_nil]
    rfl

theorem removal?_false {kind : MemberKind} (newMembers : List (Member kind))
    (member : Member kind) :
    removal? false old newMembers member =
      (removal? true old newMembers member).filter (Change.isDeclared old new) := by
  unfold removal?
  simp only [Classification.isListed_true, if_true]
  split
  · rfl
  · rw [Option.filter_some]
    rfl

theorem arrival?_false {kind : MemberKind} (oldMembers : List (Member kind))
    (member : Member kind) :
    arrival? false old new oldMembers member =
      (arrival? true old new oldMembers member).filter (Change.isDeclared old new) := by
  unfold arrival?
  simp only [Classification.isListed_true, Bool.true_or, if_true]
  cases findMember oldMembers member.key with
  | none =>
    simp only
    rw [Option.filter_some]
    rfl
  | some before =>
    simp only
    split
    · rfl
    · rw [Option.filter_some, Bool.or_comm]
      rfl

theorem memberChanges_false {kind : MemberKind} (oldMembers newMembers : List (Member kind)) :
    memberChanges false old new oldMembers newMembers =
      (memberChanges true old new oldMembers newMembers).filter (Change.isDeclared old new) := by
  unfold memberChanges
  rw [List.filter_append, List.filter_filterMap, List.filter_filterMap]
  simp only [removal?_false old new, arrival?_false old new]

/-- Members that occur more than once make no difference: the same one is looked
up either way. -/
theorem changes_false :
    changes false old new = (changes true old new).filter (Change.isDeclared old new) := by
  unfold changes
  rw [List.filter_append, List.filter_append, headerChanges_false, memberChanges_false,
    memberChanges_false]

/-- A field that becomes synthetic has been declared before, so it is listed; a
field that is synthetic from the start is not. -/
example :
    let later : ClassInfo := { queueBefore with
      fields := [⟨"Queue", "CAPACITY", "I", .ofBits 0x1019, none, some "16", false, false⟩,
        ⟨"Queue", "$lock", "I", .ofBits 0x1008, none, none, false, false⟩] }
    (changes true (.ofInfo queueBefore) (.ofInfo later)).map Change.kind = [.modified, .added] ∧
      (changes false (.ofInfo queueBefore) (.ofInfo later)).map Change.kind = [.modified] := by
  decide

theorem additionChanges_false :
    additionChanges false new =
      (additionChanges true new).filter (Change.isDeclared old new) := by
  unfold additionChanges
  simp only [Classification.isListed_true, if_true]
  rw [List.filter_cons, List.filter_nil]
  rfl

theorem removalChanges_false :
    removalChanges false old =
      (removalChanges true old).filter (Change.isDeclared old new) := by
  unfold removalChanges
  simp only [Classification.isListed_true, if_true]
  rw [List.filter_cons, List.filter_nil]
  rfl

end ClassifiedClass

end ClassDelta
