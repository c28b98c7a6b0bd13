import ClassDelta.Proofs.Diff.Completeness
import Mathlib.Data.List.Perm.Basic
import Mathlib.Data.Prod.Basic

/-!
# Comparing the other way round

When the two versions of a class change places, what was added is removed, what
was removed is added, and a modification goes from its new version to its old
one.  `Change.mirror` does this to one change.

The comparison finds changes in two ways: removals from the old members, and
everything else from the new ones.  So what comes from the new members is first
taken apart (`ClassifiedClass.memberChanges_perm`).  Additions and removals then
mirror each other one by one, and modifications belong to the pairs of versions,
which are the same pairs in both directions (`versions_perm_swap`).

The main statement is `ClassifiedClass.changes_perm_mirror`.
-/

namespace ClassDelta

/-! ## Mirror images -/

namespace Replaced

def swap {α : Type} (replaced : Replaced α) : Replaced α := ⟨replaced.new, replaced.old⟩

end Replaced

namespace SetDelta

def swap (delta : SetDelta) : SetDelta := ⟨delta.removed, delta.added⟩

end SetDelta

namespace Delta

/-- The difference in the same aspect, the other way round. -/
def mirror : Delta → Delta
  | flags names => flags names.swap
  | signature value => signature value.swap
  | exceptions classes => exceptions classes.swap
  | constantValue literal => constantValue literal.swap
  | deprecated mark => deprecated mark.swap
  | superClass name => superClass name.swap
  | interfaces classes => interfaces classes.swap
  | version replaced => version replaced.swap
  | outerClass name => outerClass name.swap

end Delta

/-- The classification that a class gives to what a change is about. -/
def ClassifiedClass.classifySubject (classified : ClassifiedClass) : Subject → Classification
  | .ofClass _ => classified.classifications.ofClass
  | .member declared => classified.classify declared

/-- The change in the other direction, which leads to the class `old`.  So that
class says how a modification is classified. -/
def Change.mirror (old : ClassifiedClass) : Change → Change
  | added subject classification => removed subject classification
  | removed subject classification => added subject classification
  | modified before after deltas _ =>
    modified after before (deltas.map Delta.mirror) (old.classifySubject before)

/-! ## Deltas -/

namespace Delta

theorem map_mirror_ofValues {α : Type} [DecidableEq α] (build : Replaced α → Delta)
    (hbuild : ∀ replaced, (build replaced).mirror = build replaced.swap) (old new : α) :
    (ofValues build old new).map mirror = ofValues build new old := by
  unfold ofValues
  by_cases hsame : old = new
  · rw [if_pos hsame, if_pos hsame.symm, List.map_nil]
  · rw [if_neg hsame, if_neg (Ne.symm hsame), List.map_singleton, hbuild]
    rfl

theorem map_mirror_ofSets (build : SetDelta → Delta)
    (hbuild : ∀ delta, (build delta).mirror = build delta.swap) (old new : List String) :
    (ofSets build old new).map mirror = ofSets build new old := by
  have hswap : SetDelta.betweenSets new old = (SetDelta.betweenSets old new).swap := rfl
  have hempty (delta : SetDelta) : delta.swap.isEmpty = delta.isEmpty := Bool.and_comm _ _
  unfold ofSets
  simp only [hswap, hempty]
  split
  · exact List.map_nil
  · rw [List.map_singleton, hbuild]

theorem map_mirror_ofFlags {scope : FlagScope} (old new : Flags scope) :
    (ofFlags old new).map mirror = ofFlags new old := by
  unfold ofFlags
  by_cases hsame : old = new
  · rw [if_pos hsame, if_pos hsame.symm, List.map_nil]
  · rw [if_neg hsame, if_neg (Ne.symm hsame), List.map_singleton]
    rfl

end Delta

theorem MemberKind.map_mirror_detailDeltas (kind : MemberKind) (old new : kind.Detail) :
    (kind.detailDeltas old new).map Delta.mirror = kind.detailDeltas new old := by
  cases kind with
  | field => exact Delta.map_mirror_ofValues _ (fun _ => rfl) old new
  | method => exact Delta.map_mirror_ofSets _ (fun _ => rfl) old new

/-- The same aspects of a member differ in both directions, in the same order. -/
theorem Member.map_mirror_deltas {kind : MemberKind} (old new : Member kind) :
    (old.deltas new).map Delta.mirror = new.deltas old := by
  simp only [deltas, List.map_append, Delta.map_mirror_ofFlags,
    MemberKind.map_mirror_detailDeltas, Delta.map_mirror_ofValues .signature fun _ => rfl,
    Delta.map_mirror_ofValues .deprecated fun _ => rfl]

/-- The same aspects of a class differ in both directions, in the same order. -/
theorem ClassHeader.map_mirror_deltas (old new : ClassHeader) :
    (old.deltas new).map Delta.mirror = new.deltas old := by
  simp only [deltas, List.map_append, Delta.map_mirror_ofFlags,
    Delta.map_mirror_ofValues .superClass fun _ => rfl,
    Delta.map_mirror_ofSets .interfaces fun _ => rfl,
    Delta.map_mirror_ofValues .signature fun _ => rfl,
    Delta.map_mirror_ofValues .version fun _ => rfl,
    Delta.map_mirror_ofValues .outerClass fun _ => rfl,
    Delta.map_mirror_ofValues .deprecated fun _ => rfl]

/-! ## Pairs of versions -/

section Versions

variable {kind : MemberKind} {oldMembers newMembers : List (Member kind)}

/-- The members that are on both sides, each with its old and its new version, in
the order of the new side. -/
def versions (oldMembers newMembers : List (Member kind)) : List (Member kind × Member kind) :=
  newMembers.filterMap fun after =>
    (findMember oldMembers after.key).map fun before => (before, after)

theorem mem_versions_iff (hold : (oldMembers.map Member.key).Nodup) {before after : Member kind} :
    (before, after) ∈ versions oldMembers newMembers ↔
      before ∈ oldMembers ∧ after ∈ newMembers ∧ before.key = after.key := by
  unfold versions
  rw [List.mem_filterMap]
  constructor
  · rintro ⟨candidate, hmem, hpair⟩
    obtain ⟨found, hfind, heq⟩ := Option.map_eq_some_iff.1 hpair
    cases heq
    obtain ⟨hfound, hkey⟩ := findMember_eq_some hfind
    exact ⟨hfound, hmem, hkey⟩
  · rintro ⟨hbefore, hafter, hkey⟩
    refine ⟨after, hafter, ?_⟩
    rw [← hkey, findMember_eq_some_of_mem hold hbefore, Option.map_some]

theorem nodup_versions (hnew : (newMembers.map Member.key).Nodup) :
    (versions oldMembers newMembers).Nodup := by
  refine List.Nodup.filterMap ?_ (List.Nodup.of_map _ hnew)
  intro after after' pair hpair hpair'
  obtain ⟨before, -, rfl⟩ := Option.map_eq_some_iff.1 hpair
  obtain ⟨before', -, heq⟩ := Option.map_eq_some_iff.1 hpair'
  cases heq
  rfl

/-- Both directions match the same members with each other. -/
theorem versions_perm_swap (hold : (oldMembers.map Member.key).Nodup)
    (hnew : (newMembers.map Member.key).Nodup) :
    (versions newMembers oldMembers).Perm ((versions oldMembers newMembers).map Prod.swap) := by
  have hswapped : ((versions oldMembers newMembers).map Prod.swap).Nodup :=
    (nodup_versions hnew).map Prod.swap_injective
  rw [List.perm_ext_iff_of_nodup (nodup_versions hold) hswapped]
  rintro ⟨after, before⟩
  have hpair : (after, before) ∈ (versions oldMembers newMembers).map Prod.swap ↔
      (before, after) ∈ versions oldMembers newMembers := by
    rw [List.mem_map]
    constructor
    · rintro ⟨⟨_, _⟩, hmem, heq⟩
      cases heq
      exact hmem
    · intro hmem
      exact ⟨(before, after), hmem, rfl⟩
  rw [hpair, mem_versions_iff hold, mem_versions_iff hnew]
  constructor
  · rintro ⟨hafter, hbefore, hkey⟩
    exact ⟨hbefore, hafter, hkey.symm⟩
  · rintro ⟨hbefore, hafter, hkey⟩
    exact ⟨hafter, hbefore, hkey.symm⟩

end Versions

/-! ## The changes to members, taken apart -/

namespace ClassifiedClass

variable {kind : MemberKind} (includeSynthetics : Bool)

/-- The addition of a new member, unless it was there before. -/
def addition? (new : ClassifiedClass) (oldMembers : List (Member kind)) (member : Member kind) :
    Option Change :=
  let classification := new.classify member
  if (findMember oldMembers member.key).isSome then none
  else if classification.isListed includeSynthetics then
    some (.added (.member member) classification)
  else none

/-- The modification of a member that there is in two versions, if they differ. -/
def modification? (old new : ClassifiedClass) (versions : Member kind × Member kind) :
    Option Change :=
  let deltas := versions.1.deltas versions.2
  if deltas.isEmpty then none
  else if (new.classify versions.2).isListed includeSynthetics ||
      (old.classify versions.1).isListed includeSynthetics then
    some (.modified (.member versions.1) (.member versions.2) deltas (new.classify versions.2))
  else none

/-- What is listed about a new member is its addition or its modification. -/
theorem toList_arrival? (old new : ClassifiedClass) (oldMembers : List (Member kind))
    (member : Member kind) :
    (arrival? includeSynthetics old new oldMembers member).toList =
      (addition? includeSynthetics new oldMembers member).toList ++
        ((findMember oldMembers member.key).bind fun before =>
          modification? includeSynthetics old new (before, member)).toList := by
  unfold arrival? addition?
  cases hfind : findMember oldMembers member.key with
  | none => simp
  | some before => simp [modification?]

/-- The changes to the members of one kind are the removals, the additions and
the modifications. -/
theorem memberChanges_perm (old new : ClassifiedClass)
    (oldMembers newMembers : List (Member kind)) :
    (memberChanges includeSynthetics old new oldMembers newMembers).Perm
      (oldMembers.filterMap (removal? includeSynthetics old newMembers) ++
        (newMembers.filterMap (addition? includeSynthetics new oldMembers) ++
          (versions oldMembers newMembers).filterMap
            (modification? includeSynthetics old new))) := by
  have hversions : (versions oldMembers newMembers).filterMap
        (modification? includeSynthetics old new) =
      newMembers.filterMap fun after => (findMember oldMembers after.key).bind fun before =>
        modification? includeSynthetics old new (before, after) := by
    rw [versions, List.filterMap_filterMap]
    simp only [Option.bind_map, Function.comp_def]
  unfold memberChanges
  refine List.Perm.append_left _ ?_
  rw [hversions]
  simp only [List.filterMap_eq_flatMap_toList, toList_arrival?]
  exact (List.flatMap_append_perm _ _ _).symm

/-! ## Mirroring changes to members -/

variable {includeSynthetics}

theorem map_mirror_removal? (old mirrored : ClassifiedClass) (newMembers : List (Member kind))
    (member : Member kind) :
    (removal? includeSynthetics old newMembers member).map (Change.mirror mirrored) =
      addition? includeSynthetics old newMembers member := by
  simp only [removal?, addition?, apply_ite (Option.map (Change.mirror mirrored)), Option.map_none,
    Option.map_some, Change.mirror]

theorem map_mirror_addition? (new mirrored : ClassifiedClass) (oldMembers : List (Member kind))
    (member : Member kind) :
    (addition? includeSynthetics new oldMembers member).map (Change.mirror mirrored) =
      removal? includeSynthetics new oldMembers member := by
  simp only [removal?, addition?, apply_ite (Option.map (Change.mirror mirrored)), Option.map_none,
    Option.map_some, Change.mirror]

theorem map_mirror_modification? (old new : ClassifiedClass)
    (versions : Member kind × Member kind) :
    (modification? includeSynthetics old new versions).map (Change.mirror old) =
      modification? includeSynthetics new old versions.swap := by
  obtain ⟨before, after⟩ := versions
  have hdeltas := Member.map_mirror_deltas before after
  have hempty : (after.deltas before).isEmpty = (before.deltas after).isEmpty := by
    rw [← hdeltas, List.isEmpty_map]
  have hlisted := Bool.or_comm ((new.classify after).isListed includeSynthetics)
    ((old.classify before).isListed includeSynthetics)
  simp only [modification?, apply_ite (Option.map (Change.mirror old)), Option.map_none,
    Option.map_some, Change.mirror, hdeltas, Prod.fst_swap, Prod.snd_swap, hempty, hlisted,
    classifySubject]

/-- Removals come from additions, additions from removals, and modifications from
modifications. -/
theorem memberChanges_perm_mirror (includeSynthetics : Bool) (old new : ClassifiedClass)
    {oldMembers newMembers : List (Member kind)} (hold : (oldMembers.map Member.key).Nodup)
    (hnew : (newMembers.map Member.key).Nodup) :
    (memberChanges includeSynthetics new old newMembers oldMembers).Perm
      ((memberChanges includeSynthetics old new oldMembers newMembers).map
        (Change.mirror old)) := by
  have hmodified :
      ((versions newMembers oldMembers).filterMap (modification? includeSynthetics new old)).Perm
        (((versions oldMembers newMembers).filterMap
          (modification? includeSynthetics old new)).map (Change.mirror old)) := by
    rw [List.map_filterMap]
    simp only [map_mirror_modification?]
    refine ((versions_perm_swap hold hnew).filterMap _).trans (List.Perm.of_eq ?_)
    rw [List.filterMap_map]
    rfl
  refine (memberChanges_perm includeSynthetics new old newMembers oldMembers).trans ?_
  refine List.Perm.trans ?_
    ((memberChanges_perm includeSynthetics old new oldMembers newMembers).map _).symm
  rw [List.map_append, List.map_append, List.map_filterMap, List.map_filterMap]
  simp only [map_mirror_removal?, map_mirror_addition?]
  refine (List.perm_append_comm_assoc _ _ _).trans ?_
  exact List.Perm.append_left _ (List.Perm.append_left _ hmodified)

/-! ## Mirroring changes to classes -/

theorem map_mirror_headerChanges (old new : ClassifiedClass) :
    (headerChanges includeSynthetics old new).map (Change.mirror old) =
      headerChanges includeSynthetics new old := by
  have hdeltas := ClassHeader.map_mirror_deltas old.info.header new.info.header
  have hempty : (new.info.header.deltas old.info.header).isEmpty =
      (old.info.header.deltas new.info.header).isEmpty := by
    rw [← hdeltas, List.isEmpty_map]
  have hlisted := Bool.or_comm (new.classifications.ofClass.isListed includeSynthetics)
    (old.classifications.ofClass.isListed includeSynthetics)
  simp only [headerChanges, apply_ite (List.map (Change.mirror old)), List.map_nil, List.map_cons,
    Change.mirror, hdeltas, hempty, hlisted, classifySubject]

theorem map_mirror_removalChanges (classified mirrored : ClassifiedClass) :
    (removalChanges includeSynthetics classified).map (Change.mirror mirrored) =
      additionChanges includeSynthetics classified := by
  simp only [removalChanges, additionChanges, apply_ite (List.map (Change.mirror mirrored)),
    List.map_nil, List.map_cons, Change.mirror]

theorem map_mirror_additionChanges (classified mirrored : ClassifiedClass) :
    (additionChanges includeSynthetics classified).map (Change.mirror mirrored) =
      removalChanges includeSynthetics classified := by
  simp only [removalChanges, additionChanges, apply_ite (List.map (Change.mirror mirrored)),
    List.map_nil, List.map_cons, Change.mirror]

/-- The changes from the new version of a class to the old one are the mirror
images of the changes from the old one to the new one, though maybe in another
order.  A class that is only on one side is new in one direction and gone in the
other. -/
theorem changes_perm_mirror (includeSynthetics : Bool) (old new : ClassifiedClass)
    (hold : old.info.HasDistinctMembers) (hnew : new.info.HasDistinctMembers) :
    (changes includeSynthetics new old).Perm
        ((changes includeSynthetics old new).map (Change.mirror old)) ∧
      ∀ classified : ClassifiedClass,
        additionChanges includeSynthetics classified =
            (removalChanges includeSynthetics classified).map (Change.mirror classified) ∧
          removalChanges includeSynthetics classified =
            (additionChanges includeSynthetics classified).map (Change.mirror classified) := by
  have hfields := memberChanges_perm_mirror includeSynthetics old new (hold .field) (hnew .field)
  have hmethods := memberChanges_perm_mirror includeSynthetics old new (hold .method) (hnew .method)
  constructor
  · unfold changes
    rw [List.map_append, List.map_append, map_mirror_headerChanges]
    exact (hfields.append_left _).append hmethods
  · intro classified
    exact ⟨(map_mirror_removalChanges classified classified).symm,
      (map_mirror_additionChanges classified classified).symm⟩

/-- Going from the later queue back to the earlier one. -/
theorem changes_perm_mirror_queue :
    queueBefore.HasDistinctMembers ∧ queueAfter.HasDistinctMembers ∧
      (changes false (.ofInfo queueAfter) (.ofInfo queueBefore)).Perm
        ((changes false (.ofInfo queueBefore) (.ofInfo queueAfter)).map
          (Change.mirror (.ofInfo queueBefore))) := by
  have hold : queueBefore.HasDistinctMembers := by decide
  have hnew : queueAfter.HasDistinctMembers := by decide
  exact ⟨hold, hnew,
    (changes_perm_mirror false (.ofInfo queueBefore) (.ofInfo queueAfter) hold hnew).1⟩

/-- The order is another one: removals come before modifications in either direction. -/
example :
    (changes false (.ofInfo queueAfter) (.ofInfo queueBefore)).map Change.kind =
        [.modified, .modified, .removed, .modified, .added] ∧
      (((changes false (.ofInfo queueBefore) (.ofInfo queueAfter)).map
          (Change.mirror (.ofInfo queueBefore))).map Change.kind) =
        [.modified, .modified, .added, .modified, .removed] := by
  decide

end ClassifiedClass

end ClassDelta
