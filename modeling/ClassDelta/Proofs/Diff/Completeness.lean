import ClassDelta.Proofs.Classification
import ClassDelta.Proofs.Diff.Deltas
import Mathlib.Data.List.Nodup

/-!
# Every change is listed

`ClassifiedClass.listing` says outright which changes there are between two
versions of a class and in which order they stand: the class, the fields, the
methods; within a kind the removals in the order of the old class, and then
what is new or different in the order of the new one.  It goes through members
and their keys only, with no look-up in between.

The main statement is `ClassifiedClass.changes_eq_listing`: with synthetics
asked for, the comparison lists exactly that.
-/

namespace ClassDelta

/-! ## Finding a member -/

section FindMember

variable {kind : MemberKind} {members : List (Member kind)} {key : String × String}

theorem findMember_eq_none_iff : findMember members key = none ↔ key ∉ members.map Member.key := by
  rw [findMember, List.find?_eq_none, List.mem_map]
  simp

theorem isSome_findMember_iff :
    (findMember members key).isSome = true ↔ key ∈ members.map Member.key := by
  rw [Option.isSome_iff_ne_none, Ne, findMember_eq_none_iff, Classical.not_not]

theorem findMember_eq_some {member : Member kind} (h : findMember members key = some member) :
    member ∈ members ∧ member.key = key := by
  have hmem := List.mem_of_find?_eq_some h
  have hkey := List.find?_some h
  exact ⟨List.mem_reverse.1 hmem, of_decide_eq_true hkey⟩

/-- Where keys are distinct, every member is found by its key. -/
theorem findMember_eq_some_of_mem (hdistinct : (members.map Member.key).Nodup)
    {member : Member kind} (hmem : member ∈ members) :
    findMember members member.key = some member := by
  have hpresent := isSome_findMember_iff.2 (List.mem_map_of_mem hmem)
  obtain ⟨found, hfound⟩ := Option.isSome_iff_exists.1 hpresent
  obtain ⟨hfoundMem, hkey⟩ := findMember_eq_some hfound
  rw [hfound, List.inj_on_of_nodup_map hdistinct hfoundMem hmem hkey]

/-- Where keys are distinct, a member is the only one with its key. -/
theorem filter_key_eq (hdistinct : (members.map Member.key).Nodup) {member : Member kind}
    (hmem : member ∈ members) (condition : Member kind → Bool) :
    (members.filter fun other => decide (other.key = member.key) && condition other) =
      if condition member then [member] else [] := by
  induction members with
  | nil => cases hmem
  | cons first later ih =>
    rw [List.map_cons, List.nodup_cons] at hdistinct
    rcases List.mem_cons.1 hmem with rfl | hlater
    · have hrest : (later.filter fun other =>
          decide (other.key = member.key) && condition other) = [] := by
        rw [List.filter_eq_nil_iff]
        intro other hother hboth
        rw [Bool.and_eq_true, decide_eq_true_eq] at hboth
        exact hdistinct.1 (hboth.1 ▸ List.mem_map_of_mem hother)
      rw [List.filter_cons, hrest, decide_eq_true rfl, Bool.true_and]
    · have hne : ¬ first.key = member.key := by
        intro heq
        exact hdistinct.1 (heq ▸ List.mem_map_of_mem hlater)
      rw [List.filter_cons, decide_eq_false hne, Bool.false_and, ih hdistinct.2 hlater]
      rfl

end FindMember

/-! ## What is listed -/

namespace Classification

@[simp] theorem isListed_true (classification : Classification) :
    classification.isListed true = true := rfl

/-- Without synthetics, what is listed is what is declared. -/
theorem isListed_false_iff (classification : Classification) :
    classification.isListed false = true ↔ classification = .sourceDeclared := by
  cases classification <;> decide

end Classification

/-! ## The list of changes, said outright -/

namespace ClassifiedClass

/-- The change to the class itself. -/
def headerListing (old new : ClassifiedClass) : List Change :=
  if old.info.header.Agrees new.info.header then []
  else
    [.modified (.ofClass old.info.header) (.ofClass new.info.header)
      (old.info.header.deltas new.info.header) new.classifications.ofClass]

/-- The old members without a counterpart. -/
def removalListing {kind : MemberKind} (old : ClassifiedClass)
    (oldMembers newMembers : List (Member kind)) : List Change :=
  (oldMembers.filter fun member => decide (member.key ∉ newMembers.map Member.key)).map
    fun member => .removed (.member member) (old.classify member)

/-- What there is to list about a new member: that it is new, or that it differs
from the old member with its key. -/
def arrivalListing {kind : MemberKind} (new : ClassifiedClass) (oldMembers : List (Member kind))
    (member : Member kind) : List Change :=
  if member.key ∉ oldMembers.map Member.key then [.added (.member member) (new.classify member)]
  else
    (oldMembers.filter fun before =>
        decide (before.key = member.key) && decide (¬ before.Agrees member)).map
      fun before =>
        .modified (.member before) (.member member) (before.deltas member) (new.classify member)

/-- The changes to the members of one kind. -/
def memberListing {kind : MemberKind} (old new : ClassifiedClass)
    (oldMembers newMembers : List (Member kind)) : List Change :=
  removalListing old oldMembers newMembers ++ newMembers.flatMap (arrivalListing new oldMembers)

/-- All changes between two versions of a class. -/
def listing (old new : ClassifiedClass) : List Change :=
  headerListing old new ++ memberListing old new old.info.fields new.info.fields ++
    memberListing old new old.info.methods new.info.methods

/-! ## The comparison gives this list -/

theorem headerChanges_eq_listing (old new : ClassifiedClass) :
    headerChanges true old new = headerListing old new := by
  unfold headerChanges headerListing
  simp only [Classification.isListed_true, Bool.true_or, if_true, List.isEmpty_iff,
    ClassHeader.deltas_eq_nil_iff]

theorem removal?_eq {kind : MemberKind} (old : ClassifiedClass)
    (newMembers : List (Member kind)) (member : Member kind) :
    removal? true old newMembers member =
      if member.key ∈ newMembers.map Member.key then none
      else some (.removed (.member member) (old.classify member)) := by
  simp only [removal?, isSome_findMember_iff, Classification.isListed_true, if_true]

theorem filterMap_removal?_eq_listing {kind : MemberKind} (old : ClassifiedClass)
    (oldMembers newMembers : List (Member kind)) :
    oldMembers.filterMap (removal? true old newMembers) =
      removalListing old oldMembers newMembers := by
  unfold removalListing
  induction oldMembers with
  | nil => rfl
  | cons member later ih =>
    by_cases hmem : member.key ∈ newMembers.map Member.key
    · have hnone := removal?_eq old newMembers member
      rw [if_pos hmem] at hnone
      simp only [List.filterMap_cons_none hnone, ih, List.filter_cons, hmem, not_true,
        decide_false, Bool.false_eq_true, if_false]
    · have hsome := removal?_eq old newMembers member
      rw [if_neg hmem] at hsome
      simp only [List.filterMap_cons_some hsome, ih, List.filter_cons, hmem, not_false_eq_true,
        decide_true, if_true, List.map_cons]

/-- Of a new member the comparison lists what there is to list. -/
theorem toList_arrival?_eq_listing {kind : MemberKind} (old new : ClassifiedClass)
    {oldMembers : List (Member kind)} (hdistinct : (oldMembers.map Member.key).Nodup)
    (member : Member kind) :
    (arrival? true old new oldMembers member).toList = arrivalListing new oldMembers member := by
  unfold arrival? arrivalListing
  cases hfind : findMember oldMembers member.key with
  | none =>
    rw [if_pos (findMember_eq_none_iff.1 hfind)]
    rfl
  | some before =>
    obtain ⟨hmem, hkey⟩ := findMember_eq_some hfind
    have hpresent : ¬ member.key ∉ oldMembers.map Member.key := by
      rw [Classical.not_not, ← hkey]
      exact List.mem_map_of_mem hmem
    rw [if_neg hpresent, ← hkey, filter_key_eq hdistinct hmem]
    by_cases hagrees : before.Agrees member
    · have hnil := (Member.deltas_eq_nil_iff before member).2 hagrees
      simp [hnil, hagrees]
    · have hdiffers : ¬ before.deltas member = [] := fun hnil =>
        hagrees ((Member.deltas_eq_nil_iff before member).1 hnil)
      simp [hdiffers, hagrees]

theorem memberChanges_eq_listing {kind : MemberKind} (old new : ClassifiedClass)
    {oldMembers : List (Member kind)} (hdistinct : (oldMembers.map Member.key).Nodup)
    (newMembers : List (Member kind)) :
    memberChanges true old new oldMembers newMembers =
      memberListing old new oldMembers newMembers := by
  unfold memberChanges memberListing
  rw [filterMap_removal?_eq_listing, List.filterMap_eq_flatMap_toList]
  simp only [toList_arrival?_eq_listing old new hdistinct]

/-- With synthetics asked for, all changes are listed, each once and in order,
and nothing else is. -/
theorem changes_eq_listing (old new : ClassifiedClass)
    (hdistinct : old.info.HasDistinctMembers) : changes true old new = listing old new := by
  have hfields : (old.info.fields.map Member.key).Nodup := hdistinct .field
  have hmethods : (old.info.methods.map Member.key).Nodup := hdistinct .method
  unfold changes listing
  rw [headerChanges_eq_listing, memberChanges_eq_listing old new hfields,
    memberChanges_eq_listing old new hmethods]

/-- A queue whose capacity is a constant. -/
def queueBefore : ClassInfo where
  name := "Queue"
  version := ⟨52, 0⟩
  flags := .ofBits 0x0021
  superClass := some "java/lang/Object"
  interfaces := []
  fields := [⟨"Queue", "CAPACITY", "I", .ofBits 0x0019, none, some "16", false, false⟩]
  methods :=
    [⟨"Queue", "take", "()I", .ofBits 0x0001, none, ["java/lang/Exception"], false, false⟩,
      ⟨"Queue", "drain", "()V", .ofBits 0x0001, none, [], false, false⟩]
  outerClass := none
  signature := none
  syntheticAttribute := false
  deprecated := false

/-- The queue with a larger capacity, a method less and a method that throws
nothing any more; there is an interface and an overload that were not there. -/
def queueAfter : ClassInfo :=
  { queueBefore with
    interfaces := ["java/lang/Iterable"]
    fields := [⟨"Queue", "CAPACITY", "I", .ofBits 0x0019, none, some "32", false, false⟩]
    methods :=
      [⟨"Queue", "take", "()I", .ofBits 0x0001, none, [], false, false⟩,
        ⟨"Queue", "take", "(J)I", .ofBits 0x0001, none, [], false, false⟩] }

theorem changes_eq_listing_queue :
    queueBefore.HasDistinctMembers ∧
      changes true (.ofInfo queueBefore) (.ofInfo queueAfter) =
        listing (.ofInfo queueBefore) (.ofInfo queueAfter) := by
  have hdistinct : queueBefore.HasDistinctMembers := by decide
  exact ⟨hdistinct, changes_eq_listing (.ofInfo queueBefore) (.ofInfo queueAfter) hdistinct⟩

example : (changes true (.ofInfo queueBefore) (.ofInfo queueAfter)).map Change.kind =
    [.modified, .modified, .removed, .modified, .added] := by
  decide

end ClassifiedClass

end ClassDelta
