import ClassDelta.Proofs.Diff.Completeness

/-!
# What it means that nothing is listed

Without synthetics, an empty list of changes does not say that two versions of
a class are the same.  It says so of what the source code declares, and
`ClassInfo.declared_of_changes_eq_nil` says how far: a declared member of either
version has a counterpart that agrees with it in all that is compared.

The counterpart need not be declared itself.  Where a member comes from depends
also on things that are no delta, and `ClassInfo.Reclassifies` lists them.
-/

namespace ClassDelta

/-! ## Where a member comes from -/

namespace Member

variable {kind : MemberKind}

/-- The flags that no declared member has. -/
def hasSyntheticFlag : {kind : MemberKind} → Member kind → Bool
  | .field, field => field.flags.has AccessBit.synthetic
  | .method, method => method.isBridge || method.flags.has AccessBit.synthetic

/-- The name is one that compilers give. -/
def hasSyntheticName (nested : Bool) : {kind : MemberKind} → Member kind → Bool
  | .field, field => nested && hasNumberedName "this$" field.name
  | .method, method => hasNumberedName "access$" method.name

theorem classification_eq_sourceDeclared_iff (nested : Bool) (member : Member kind) :
    member.classification nested = .sourceDeclared ↔
      member.hasSyntheticFlag = false ∧ member.syntheticAttribute = false ∧
        member.hasSyntheticName nested = false := by
  cases kind with
  | field =>
    simp [classification, isMarkedSynthetic, hasSyntheticFlag, hasSyntheticName, and_assoc]
  | method =>
    cases hbridge : isBridge member <;>
      simp [classification, isMarkedSynthetic, hasSyntheticFlag, hasSyntheticName, hbridge,
        and_assoc]

/-- Of two versions with equal flags and names of which one is declared, the
other one is declared as well unless the attribute comes or goes, or the class
becomes or ceases to be nested and the name is that of an outer instance. -/
theorem sourceDeclared_iff_iff {before after : Member kind} {nestedBefore nestedAfter : Bool}
    (hname : before.name = after.name) (hflags : before.flags = after.flags)
    (hdeclared : before.classification nestedBefore = .sourceDeclared ∨
      after.classification nestedAfter = .sourceDeclared) :
    (before.classification nestedBefore = .sourceDeclared ↔
        after.classification nestedAfter = .sourceDeclared) ↔
      ¬ (before.syntheticAttribute ≠ after.syntheticAttribute ∨
        kind = .field ∧ hasNumberedName "this$" before.name = true ∧
          nestedBefore ≠ nestedAfter) := by
  have hsame : before.hasSyntheticFlag = after.hasSyntheticFlag := by
    cases kind <;> simp only [hasSyntheticFlag, isBridge, hflags]
  simp only [classification_eq_sourceDeclared_iff, hsame] at hdeclared ⊢
  have hplain : after.hasSyntheticFlag = false := by
    rcases hdeclared with hbefore | hafter
    · exact hbefore.1
    · exact hafter.1
  simp only [hplain, true_and] at hdeclared ⊢
  cases kind with
  | field =>
    simp only [hasSyntheticName, ← hname] at hdeclared ⊢
    grind
  | method =>
    simp only [hasSyntheticName, ← hname] at hdeclared ⊢
    grind

end Member

/-! ## The declared surface -/

namespace ClassInfo

/-- The class has the member, and it is classified as source-declared. -/
structure Declares (info : ClassInfo) {kind : MemberKind} (member : Member kind) : Prop where
  mem : member ∈ info.members kind
  declared : (ClassifiedClass.ofInfo info).classify member = .sourceDeclared

instance (info : ClassInfo) {kind : MemberKind} (member : Member kind) :
    Decidable (info.Declares member) :=
  decidable_of_iff (member ∈ info.members kind ∧
      (ClassifiedClass.ofInfo info).classify member = .sourceDeclared)
    ⟨fun h => ⟨h.1, h.2⟩, fun h => ⟨h.1, h.2⟩⟩

/-- What decides where a member comes from changes, but is not compared: the
attribute for synthetic members; for a field called like an outer instance, that
its class is nested, if the class is synthetic before and after. -/
def Reclassifies (old new : ClassInfo) {kind : MemberKind} (before after : Member kind) : Prop :=
  before.syntheticAttribute ≠ after.syntheticAttribute ∨
    kind = .field ∧ hasNumberedName "this$" before.name = true ∧
      old.isSynthetic = true ∧ new.isSynthetic = true ∧ old.hasOuterClass ≠ new.hasOuterClass

section EmptyDiff

open ClassifiedClass

variable {old new : ClassInfo} {kind : MemberKind}

theorem memberChanges_eq_nil
    (hnil : changes false (.ofInfo old) (.ofInfo new) = []) (kind : MemberKind) :
    memberChanges false (.ofInfo old) (.ofInfo new) (old.members kind) (new.members kind) = [] := by
  simp only [changes, List.append_eq_nil_iff] at hnil
  cases kind with
  | field => exact hnil.1.2
  | method => exact hnil.2

theorem removal?_eq_none (hnil : changes false (.ofInfo old) (.ofInfo new) = [])
    {before : Member kind} (hbefore : before ∈ old.members kind) :
    removal? false (.ofInfo old) (new.members kind) before = none := by
  have hmembers := memberChanges_eq_nil hnil kind
  rw [memberChanges, List.append_eq_nil_iff, List.filterMap_eq_nil_iff] at hmembers
  exact hmembers.1 before hbefore

theorem arrival?_eq_none (hnil : changes false (.ofInfo old) (.ofInfo new) = [])
    {after : Member kind} (hafter : after ∈ new.members kind) :
    arrival? false (.ofInfo old) (.ofInfo new) (old.members kind) after = none := by
  have hmembers := memberChanges_eq_nil hnil kind
  rw [memberChanges, List.append_eq_nil_iff, List.filterMap_eq_nil_iff,
    List.filterMap_eq_nil_iff] at hmembers
  exact hmembers.2 after hafter

/-- The class becomes or ceases to be nested only if it is synthetic throughout. -/
theorem isSynthetic_of_hasOuterClass_ne
    (hnil : changes false (.ofInfo old) (.ofInfo new) = [])
    (houter : old.hasOuterClass ≠ new.hasOuterClass) :
    old.isSynthetic = true ∧ new.isSynthetic = true := by
  simp only [changes, List.append_eq_nil_iff] at hnil
  have hheader : headerChanges false (.ofInfo old) (.ofInfo new) = [] := hnil.1.1
  have hdeltas : ¬ old.header.deltas new.header = [] := by
    rw [ClassHeader.deltas_eq_nil_iff]
    intro hagrees
    exact houter (congrArg Option.isSome hagrees.outerClass)
  unfold headerChanges at hheader
  simp only [ofInfo, hdeltas, List.isEmpty_iff, if_false] at hheader
  cases hold : old.isSynthetic <;> cases hnew : new.isSynthetic <;>
    simp [Classifications.ofInfo, Classification.isListed, Classification.isSourceDeclared, hold,
      hnew] at hheader ⊢

/-- A declared member of the old class is still there. -/
theorem Declares.kept (hnil : changes false (.ofInfo old) (.ofInfo new) = [])
    {before : Member kind} (hbefore : old.Declares before) :
    ∃ after ∈ new.members kind, after.key = before.key := by
  have hremoval := removal?_eq_none hnil hbefore.mem
  rw [← List.mem_map, ← isSome_findMember_iff]
  unfold removal? at hremoval
  split at hremoval
  · assumption
  · simp [(Classification.isListed_false_iff _).2 hbefore.declared] at hremoval

/-- A declared member of the new class was there before. -/
theorem Declares.present (hnil : changes false (.ofInfo old) (.ofInfo new) = [])
    {after : Member kind} (hafter : new.Declares after) :
    ∃ before ∈ old.members kind, before.key = after.key := by
  have harrival := arrival?_eq_none hnil hafter.mem
  rw [← List.mem_map, ← isSome_findMember_iff]
  unfold arrival? at harrival
  cases hfind : findMember (old.members kind) after.key with
  | none =>
    simp [hfind, (Classification.isListed_false_iff _).2 hafter.declared] at harrival
  | some before => rfl

/-- Two versions of a member agree if one of them is declared. -/
theorem agrees_of_declares (hold : old.HasDistinctMembers)
    (hnil : changes false (.ofInfo old) (.ofInfo new) = []) {before after : Member kind}
    (hbefore : before ∈ old.members kind) (hafter : after ∈ new.members kind)
    (hkey : before.key = after.key) (hdeclared : old.Declares before ∨ new.Declares after) :
    before.Agrees after := by
  have harrival := arrival?_eq_none hnil hafter
  have hfind := findMember_eq_some_of_mem (hold kind) hbefore
  rw [hkey] at hfind
  rw [← Member.deltas_eq_nil_iff, ← List.isEmpty_iff]
  unfold arrival? at harrival
  rcases hdeclared with hdeclared | hdeclared <;>
    simpa [hfind, (Classification.isListed_false_iff _).2 hdeclared.declared] using harrival

/-- Of two versions of a member of which one is declared, the other one is
declared exactly if nothing reclassifies it. -/
theorem declares_iff_iff (hold : old.HasDistinctMembers) (hnew : new.HasDistinctMembers)
    (hnil : changes false (.ofInfo old) (.ofInfo new) = []) {before after : Member kind}
    (hbefore : before ∈ old.members kind) (hafter : after ∈ new.members kind)
    (hkey : before.key = after.key) (hdeclared : old.Declares before ∨ new.Declares after) :
    (old.Declares before ↔ new.Declares after) ↔ ¬ Reclassifies old new before after := by
  have hagrees := agrees_of_declares hold hnil hbefore hafter hkey hdeclared
  have hname : before.name = after.name := congrArg Prod.fst hkey
  have holdIff : old.Declares before ↔
      before.classification old.hasOuterClass = .sourceDeclared := by
    rw [← classify_ofInfo hold hbefore]
    exact ⟨Declares.declared, fun h => ⟨hbefore, h⟩⟩
  have hnewIff : new.Declares after ↔
      after.classification new.hasOuterClass = .sourceDeclared := by
    rw [← classify_ofInfo hnew hafter]
    exact ⟨Declares.declared, fun h => ⟨hafter, h⟩⟩
  have houter : old.isSynthetic = true ∧ new.isSynthetic = true ∧
      old.hasOuterClass ≠ new.hasOuterClass ↔ old.hasOuterClass ≠ new.hasOuterClass := by
    constructor
    · exact fun h => h.2.2
    · intro hne
      have hsynthetic := isSynthetic_of_hasOuterClass_ne hnil hne
      exact ⟨hsynthetic.1, hsynthetic.2, hne⟩
  rw [holdIff, hnewIff] at hdeclared
  rw [holdIff, hnewIff, Reclassifies, houter]
  exact Member.sourceDeclared_iff_iff hname hagrees.flags hdeclared

/-- If nothing is listed, every declared member of either version occurs in the
other version too, unchanged in all that is compared; and it is declared there
exactly if nothing reclassifies it. -/
theorem declared_of_changes_eq_nil (hold : old.HasDistinctMembers)
    (hnew : new.HasDistinctMembers) (hnil : changes false (.ofInfo old) (.ofInfo new) = [])
    (kind : MemberKind) :
    (∀ before : Member kind, old.Declares before →
      ∃ after ∈ new.members kind, after.key = before.key ∧ before.Agrees after ∧
        (new.Declares after ↔ ¬ Reclassifies old new before after)) ∧
    ∀ after : Member kind, new.Declares after →
      ∃ before ∈ old.members kind, before.key = after.key ∧ before.Agrees after ∧
        (old.Declares before ↔ ¬ Reclassifies old new before after) := by
  constructor
  · intro before hbefore
    obtain ⟨after, hafter, hkey⟩ := hbefore.kept hnil
    have hiff := declares_iff_iff hold hnew hnil hbefore.mem hafter hkey.symm (.inl hbefore)
    refine ⟨after, hafter, hkey, ?_, ?_⟩
    · exact agrees_of_declares hold hnil hbefore.mem hafter hkey.symm (.inl hbefore)
    · rw [← hiff, iff_true_left hbefore]
  · intro after hafter
    obtain ⟨before, hbefore, hkey⟩ := hafter.present hnil
    have hiff := declares_iff_iff hold hnew hnil hbefore hafter.mem hkey (.inr hafter)
    refine ⟨before, hbefore, hkey, ?_, ?_⟩
    · exact agrees_of_declares hold hnil hbefore hafter.mem hkey (.inr hafter)
    · rw [← hiff, iff_true_right hafter]

end EmptyDiff

/-- A class with one field, which has the attribute for synthetic members or not. -/
def countingClass (marked : Bool) : ClassInfo where
  name := "Counter"
  version := ⟨52, 0⟩
  flags := .ofBits 0x0021
  superClass := some "java/lang/Object"
  interfaces := []
  fields := [⟨"Counter", "count", "I", .ofBits 0x0001, none, none, marked, false⟩]
  methods := []
  outerClass := none
  signature := none
  syntheticAttribute := false
  deprecated := false

theorem declared_of_changes_eq_nil_counting :
    (countingClass false).HasDistinctMembers ∧ (countingClass true).HasDistinctMembers ∧
      ClassifiedClass.changes false (.ofInfo (countingClass false))
        (.ofInfo (countingClass true)) = [] ∧
      ∃ before after : FieldInfo, (countingClass false).Declares before ∧
        after ∈ (countingClass true).fields ∧ before.key = ("count", "I") ∧
        after.key = before.key ∧ before.Agrees after ∧ ¬ (countingClass true).Declares after := by
  have hold : (countingClass false).HasDistinctMembers := by decide
  have hnew : (countingClass true).HasDistinctMembers := by decide
  have hnil : ClassifiedClass.changes false (.ofInfo (countingClass false))
      (.ofInfo (countingClass true)) = [] := by decide
  let before : FieldInfo := ⟨"Counter", "count", "I", .ofBits 0x0001, none, none, false, false⟩
  have hbefore : (countingClass false).Declares before := by decide
  obtain ⟨after, hafter, hkey, hagrees, hiff⟩ :=
    (declared_of_changes_eq_nil hold hnew hnil .field).1 before hbefore
  refine ⟨hold, hnew, hnil, before, after, hbefore, hafter, rfl, hkey, hagrees, ?_⟩
  rw [hiff, Classical.not_not]
  obtain rfl := List.mem_singleton.1 hafter
  exact .inl (by decide)

/-! ## Silent reclassification -/

/-- The two versions declare the same members, and these agree. -/
structure SameSurface (old new : ClassInfo) : Prop where
  declares : ∀ id : MemberId, (∃ member : Member id.kind, old.Declares member ∧ member.id = id) ↔
    ∃ member : Member id.kind, new.Declares member ∧ member.id = id
  agrees : ∀ {kind : MemberKind} {before after : Member kind}, old.Declares before →
    new.Declares after → before.key = after.key → before.Agrees after

/-- A synthetic class with a field called like an outer instance, nested or not. -/
def capturingClass (outer : Option String) : ClassInfo where
  name := "Outer$1"
  version := ⟨52, 0⟩
  flags := .ofBits 0x1020
  superClass := some "java/lang/Object"
  interfaces := []
  fields := [⟨"Outer$1", "this$0", "LOuter;", .ofBits 0x0010, none, none, false, false⟩]
  methods := []
  outerClass := outer
  signature := none
  syntheticAttribute := false
  deprecated := false

/-- A member can cease to be declared with nothing listed, by the attribute alone
or by what its class is nested in. -/
theorem not_sameSurface_of_changes_eq_nil :
    ((countingClass false).HasDistinctMembers ∧ (countingClass true).HasDistinctMembers ∧
      ClassifiedClass.changes false (.ofInfo (countingClass false))
        (.ofInfo (countingClass true)) = [] ∧
      ¬ SameSurface (countingClass false) (countingClass true)) ∧
    (capturingClass none).HasDistinctMembers ∧
      (capturingClass (some "Outer")).HasDistinctMembers ∧
      ClassifiedClass.changes false (.ofInfo (capturingClass none))
        (.ofInfo (capturingClass (some "Outer"))) = [] ∧
      ¬ SameSurface (capturingClass none) (capturingClass (some "Outer")) := by
  refine ⟨⟨by decide, by decide, by decide, fun hsame => ?_⟩, by decide, by decide, by decide,
    fun hsame => ?_⟩
  · have hdeclares := (hsame.declares ⟨.field, "count", "I"⟩).1
      ⟨_, ⟨List.mem_singleton.2 rfl, by decide⟩, rfl⟩
    obtain ⟨member, ⟨hmem, hdeclared⟩, -⟩ := hdeclares
    obtain rfl := List.mem_singleton.1 hmem
    exact absurd hdeclared (by decide)
  · have hdeclares := (hsame.declares ⟨.field, "this$0", "LOuter;"⟩).1
      ⟨_, ⟨List.mem_singleton.2 rfl, by decide⟩, rfl⟩
    obtain ⟨member, ⟨hmem, hdeclared⟩, -⟩ := hdeclares
    obtain rfl := List.mem_singleton.1 hmem
    exact absurd hdeclared (by decide)

end ClassInfo

end ClassDelta
