import ClassDelta.Proofs.Described.Failures
import ClassDelta.Proofs.Described.Members

/-!
# Members that repeat others

The check that ends the resolving of members reports the first key that occurs
before it (`Member.IsFirstRepeat`).  No other step reports a repetition, so a class
is refused for one exactly if its fields have one, or its methods do and nothing was
wrong before them.

A class that is not refused has the members of its file, one for one and in their
order (`Member.IsResolvedFrom`).

`ClassInfo.members_and_repetitions` states both.
-/

namespace ClassDelta

/-- Elements are resolved one by one. -/
theorem forall₂_of_mapM_eq_ok {ε α β : Type} {step : α → Except ε β} {values : List α}
    {results : List β} (h : values.mapM step = .ok results) :
    List.Forall₂ (fun value result => step value = .ok result) values results := by
  induction values generalizing results with
  | nil =>
    cases h
    exact .nil
  | cons value later ih =>
    rw [List.mapM_cons] at h
    obtain ⟨first, hfirst, h⟩ := exists_of_bind_eq_ok h
    obtain ⟨rest, hrest, h⟩ := exists_of_bind_eq_ok h
    cases h
    exact .cons hfirst (ih hrest)

namespace Member

/-! ## The first repetition -/

/-- The key is the first one in the list that occurs before it. -/
def IsFirstRepeat (keys : List (String × String)) (key : String × String) : Prop :=
  ∃ before after, keys = before ++ key :: after ∧ before.Nodup ∧ key ∈ before

theorem not_nodup_of_repeat {before after : List (String × String)} {key : String × String}
    (hmem : key ∈ before) : ¬ (before ++ key :: after).Nodup := by
  intro hnodup
  rw [List.nodup_append] at hnodup
  exact hnodup.2.2 key hmem key List.mem_cons_self rfl

/-- A list that goes past a repetition has one. -/
theorem eq_of_repeat {before before' between after after' : List (String × String)}
    {key key' : String × String} (hfront : before' = before ++ between)
    (hback : key :: after = between ++ key' :: after') (hmem : key ∈ before)
    (hnodup : before'.Nodup) : key = key' := by
  cases between with
  | nil =>
    cases hback
    rfl
  | cons first between =>
    cases hback
    rw [hfront] at hnodup
    exact absurd hnodup (not_nodup_of_repeat hmem)

theorem IsFirstRepeat.unique {keys : List (String × String)} {key key' : String × String}
    (h : IsFirstRepeat keys key) (h' : IsFirstRepeat keys key') : key = key' := by
  obtain ⟨before, after, rfl, hbefore, hmem⟩ := h
  obtain ⟨before', after', heq, hbefore', hmem'⟩ := h'
  rcases List.append_eq_append_iff.1 heq with ⟨between, hfront, hback⟩ | ⟨between, hfront, hback⟩
  · exact eq_of_repeat hfront hback hmem hbefore'
  · exact (eq_of_repeat hfront hback hmem' hbefore).symm

/-- What was seen, the last key first, counts as standing in front of the list. -/
theorem isFirstRepeat_of_repeatedKey? {seen keys : List (String × String)}
    {key : String × String} (hseen : seen.Nodup) (h : repeatedKey? seen keys = some key) :
    IsFirstRepeat (seen.reverse ++ keys) key := by
  induction keys generalizing seen with
  | nil => cases h
  | cons first later ih =>
    rw [repeatedKey?] at h
    split at h
    · rename_i hfirst
      cases h
      exact ⟨seen.reverse, later, rfl, (List.reverse_perm seen).nodup_iff.2 hseen,
        List.mem_reverse.2 (List.contains_iff_mem.1 hfirst)⟩
    · rename_i hfirst
      have hnew : (first :: seen).Nodup :=
        List.nodup_cons.2 ⟨fun hmem => hfirst (List.contains_iff_mem.2 hmem), hseen⟩
      have hlater := ih hnew h
      rw [List.reverse_cons, List.append_assoc] at hlater
      exact hlater

theorem isFirstRepeat_iff (keys : List (String × String)) (key : String × String) :
    IsFirstRepeat keys key ↔ repeatedKey? [] keys = some key := by
  constructor
  · intro h
    cases hfound : repeatedKey? [] keys with
    | none =>
      obtain ⟨before, after, rfl, -, hmem⟩ := h
      exact absurd ((repeatedKey?_eq_none_iff_nodup _).1 hfound) (not_nodup_of_repeat hmem)
    | some found =>
      rw [h.unique (isFirstRepeat_of_repeatedKey? List.nodup_nil hfound)]
  · exact isFirstRepeat_of_repeatedKey? List.nodup_nil

/-- There is a first repetition if there is any. -/
theorem exists_isFirstRepeat_iff (keys : List (String × String)) :
    (∃ key, IsFirstRepeat keys key) ↔ ¬ keys.Nodup := by
  rw [← repeatedKey?_eq_none_iff_nodup, ← Ne, Option.ne_none_iff_exists']
  exact exists_congr fun key => isFirstRepeat_iff keys key

variable {kind : MemberKind}

theorem checkDistinct_eq_error_iff {members : List (Member kind)} {error : ParseError} :
    checkDistinct members = .error error ↔
      ∃ name descriptor, IsFirstRepeat (members.map key) (name, descriptor) ∧
        error = .malformedClass (.duplicateMember name descriptor) := by
  simp only [isFirstRepeat_iff]
  unfold checkDistinct
  cases repeatedKey? [] (members.map key) with
  | none => simp
  | some key =>
    obtain ⟨name, descriptor⟩ := key
    simp [eq_comm]

/-! ## Resolving the members of one kind -/

/-- The member has the flags of the one in the class file, the names that its
indices lead to, and belongs to the class called `owner`. -/
structure IsResolvedFrom (pool : Pool) (owner : String) (raw : RawMember kind.scope)
    (member : Member kind) : Prop where
  owner : member.owner = owner
  flags : member.flags = raw.flags
  name : pool.text raw.name = .ok member.name
  descriptor : pool.text raw.descriptor = .ok member.descriptor

theorem isResolvedFrom_of_ofRaw {owner : String} {pool : Pool} {raw : RawMember kind.scope}
    {member : Member kind} (h : ofRaw owner pool raw = .ok member) :
    IsResolvedFrom pool owner raw member := by
  obtain ⟨detail, -, h⟩ := exists_of_bind_eq_ok h
  obtain ⟨signature, -, h⟩ := exists_of_bind_eq_ok h
  obtain ⟨name, hname, h⟩ := exists_of_bind_eq_ok h
  obtain ⟨descriptor, hdescriptor, h⟩ := exists_of_bind_eq_ok h
  obtain ⟨syntheticAttribute, -, h⟩ := exists_of_bind_eq_ok h
  obtain ⟨deprecated, -, h⟩ := exists_of_bind_eq_ok h
  cases h
  exact ⟨rfl, rfl, hname, hdescriptor⟩

theorem isResolvedFrom_of_resolveAll {owner : String} {pool : Pool}
    {raws : List (RawMember kind.scope)} {members : List (Member kind)}
    (h : resolveAll kind owner pool raws = .ok members) :
    List.Forall₂ (IsResolvedFrom pool owner) raws members := by
  have hresolved := (resolveAll_eq_ok_iff.1 h).1
  exact (forall₂_of_mapM_eq_ok hresolved).imp fun _ _ hone => isResolvedFrom_of_ofRaw hone

/-- Members are refused for a repetition once all of them could be resolved. -/
theorem resolveAll_eq_duplicate_iff {owner : String} {pool : Pool}
    {raws : List (RawMember kind.scope)} {name descriptor : String} :
    resolveAll kind owner pool raws =
        .error (.malformedClass (.duplicateMember name descriptor)) ↔
      ∃ members, raws.mapM (ofRaw owner pool) = .ok members ∧
        IsFirstRepeat (members.map key) (name, descriptor) := by
  have hresolving : raws.mapM (ofRaw owner pool) ≠
      .error (.malformedClass (.duplicateMember name descriptor)) := by
    intro herror
    cases FailsOnly.mapM (failsOnly_ofRaw pool owner) raws _ herror
  rw [resolveAll, bind_eq_error_iff, or_iff_right hresolving]
  refine exists_congr fun members => and_congr_right fun _ => ?_
  have hreturn : ¬ ∃ value, checkDistinct members = .ok value ∧
      (pure members : Except ParseError (List (Member kind))) =
        .error (.malformedClass (.duplicateMember name descriptor)) := by
    intro hlater
    obtain ⟨-, -, herror⟩ := hlater
    cases herror
  rw [bind_eq_error_iff, or_iff_left hreturn, checkDistinct_eq_error_iff]
  simp

end Member

/-! ## Classes -/

namespace ClassInfo

open Member (IsFirstRepeat IsResolvedFrom)

/-- The class goes by the name of its file, and so do its members, of which there
are as many as in the file and in the same order. -/
theorem isResolvedFrom_of_ofClassFile {file : ClassFile} {info : ClassInfo}
    (h : ofClassFile file = .ok info) :
    file.pool.className file.thisClass = .ok info.name ∧
      ∀ kind, List.Forall₂ (IsResolvedFrom file.pool info.name) (file.members kind)
        (info.members kind) := by
  obtain ⟨hname, hmembers⟩ := resolveAll_of_ofClassFile h
  exact ⟨hname, fun kind => Member.isResolvedFrom_of_resolveAll (hmembers kind)⟩

/-- Where everything up to the fields can be resolved, a repetition is reported of
the fields, or else of the methods if these can be resolved as well. -/
theorem ofClassFile_eq_duplicate_iff {file : ClassFile} {className : String}
    {superClass : Option String} {interfaces : List String} {fields : List FieldInfo}
    (hclassName : file.pool.className file.thisClass = .ok className)
    (hsuperClass : file.pool.className? file.superClass = .ok superClass)
    (hinterfaces : file.interfaces.mapM file.pool.className = .ok interfaces)
    (hfields : (file.members .field).mapM (Member.ofRaw className file.pool) = .ok fields)
    (name descriptor : String) :
    ofClassFile file = .error (.malformedClass (.duplicateMember name descriptor)) ↔
      IsFirstRepeat (fields.map Member.key) (name, descriptor) ∨
        (fields.map Member.key).Nodup ∧ ∃ methods,
          (file.members .method).mapM (Member.ofRaw className file.pool) = .ok methods ∧
            IsFirstRepeat (methods.map Member.key) (name, descriptor) := by
  unfold ofClassFile
  rw [bind_of_eq_ok hclassName, bind_of_eq_ok hsuperClass, bind_of_eq_ok hinterfaces,
    bind_eq_error_iff]
  constructor
  · intro h
    rcases h with hfield | ⟨found, hfound, h⟩
    · obtain ⟨found, hfound, hfirst⟩ := Member.resolveAll_eq_duplicate_iff.1 hfield
      cases hfields.symm.trans hfound
      exact .inl hfirst
    · obtain ⟨hfound, hdistinct⟩ := Member.resolveAll_eq_ok_iff.1 hfound
      cases hfields.symm.trans hfound
      rcases bind_eq_error_iff.1 h with hmethod | ⟨methods, -, h⟩
      · exact .inr ⟨hdistinct, Member.resolveAll_eq_duplicate_iff.1 hmethod⟩
      · -- behind the members, nothing can be repeated
        cases failsOnly_attributes file className _ _ h
  · intro h
    rcases h with hfirst | ⟨hdistinct, hmethods⟩
    · exact .inl (Member.resolveAll_eq_duplicate_iff.2 ⟨fields, hfields, hfirst⟩)
    · refine .inr ⟨fields, Member.resolveAll_eq_ok_iff.2 ⟨hfields, hdistinct⟩, ?_⟩
      exact bind_eq_error_iff.2 (.inl (Member.resolveAll_eq_duplicate_iff.2 hmethods))

/-- A class that was read has the members of its file, distinct in name and
descriptor.  A class file whose members are not is refused with the first name and
descriptor that come a second time, fields before methods. -/
theorem members_and_repetitions :
    (∀ (supported : VersionRange) (bytes : Bytes) (info : ClassInfo),
      parse supported bytes = .ok info →
      ∃ file, ClassFile.parse supported bytes = .ok file ∧
        file.pool.className file.thisClass = .ok info.name ∧
        info.HasDistinctMembers ∧
        ∀ kind, List.Forall₂ (IsResolvedFrom file.pool info.name) (file.members kind)
          (info.members kind)) ∧
    (∀ (kind : MemberKind) (members : List (Member kind)),
      (∃ key, IsFirstRepeat (members.map Member.key) key) ↔ ¬ (members.map Member.key).Nodup) ∧
    ∀ (file : ClassFile) (className : String) (superClass : Option String)
      (interfaces : List String) (fields : List FieldInfo),
      file.pool.className file.thisClass = .ok className →
      file.pool.className? file.superClass = .ok superClass →
      file.interfaces.mapM file.pool.className = .ok interfaces →
      (file.members .field).mapM (Member.ofRaw className file.pool) = .ok fields →
      ∀ name descriptor,
        ofClassFile file = .error (.malformedClass (.duplicateMember name descriptor)) ↔
          IsFirstRepeat (fields.map Member.key) (name, descriptor) ∨
            (fields.map Member.key).Nodup ∧ ∃ methods,
              (file.members .method).mapM (Member.ofRaw className file.pool) = .ok methods ∧
                IsFirstRepeat (methods.map Member.key) (name, descriptor) := by
  refine ⟨?_, fun _ members => Member.exists_isFirstRepeat_iff _, ?_⟩
  · intro supported bytes info h
    obtain ⟨file, hfile, hinfo⟩ := exists_of_bind_eq_ok h
    obtain ⟨hname, hmembers⟩ := isResolvedFrom_of_ofClassFile hinfo
    exact ⟨file, hfile, hname, hasDistinctMembers_of_parse h, hmembers⟩
  · intro file className superClass interfaces fields hclassName hsuperClass hinterfaces hfields
    exact ofClassFile_eq_duplicate_iff hclassName hsuperClass hinterfaces hfields

/-- A class with these fields and methods, whose pool has one of its texts twice. -/
def twoTextsFile (fields : List (RawMember .ofField)) (methods : List (RawMember .ofMethod)) :
    ClassFile where
  version := ⟨52, 0⟩
  pool := .ofConstants [.utf8 "A", .named .className 1, .utf8 "f", .utf8 "I", .utf8 "f"]
  flags := .ofBits 0x0021
  thisClass := 2
  superClass := 0
  interfaces := []
  fields := fields
  methods := methods
  attributes := []

/-- A field and a method may have the same name and descriptor.  Two fields may not,
though their names come from different entries. -/
theorem members_and_repetitions_twoTexts :
    let sound := twoTextsFile [⟨.ofBits 0x0001, 3, 4, []⟩] [⟨.ofBits 0x0001, 5, 4, []⟩]
    let faulty := twoTextsFile [⟨.ofBits 0x0001, 3, 4, []⟩, ⟨.ofBits 0x0002, 5, 4, []⟩] []
    (∃ info, parse .everyRelease sound.write = .ok info ∧ info.HasDistinctMembers) ∧
      ofClassFile faulty = .error (.malformedClass (.duplicateMember "f" "I")) := by
  intro sound faulty
  obtain ⟨hmembers, -, hrepetitions⟩ := members_and_repetitions
  let field : FieldInfo := ⟨"A", "f", "I", .ofBits 0x0001, none, none, false, false⟩
  let method : MethodInfo := ⟨"A", "f", "I", .ofBits 0x0001, none, [], false, false⟩
  let info : ClassInfo :=
    { name := "A", version := ⟨52, 0⟩, flags := .ofBits 0x0021, superClass := none,
      interfaces := [], fields := [field], methods := [method], outerClass := none,
      signature := none, syntheticAttribute := false, deprecated := false }
  have hparse : parse .everyRelease sound.write = .ok info := by decide +kernel
  obtain ⟨-, -, -, hdistinct, -⟩ := hmembers _ _ _ hparse
  have hrefused := hrepetitions faulty "A" none []
    [field, { field with flags := .ofBits 0x0002 }] (by decide) (by decide) (by decide) (by decide)
  have hfirst : IsFirstRepeat [("f", "I"), ("f", "I")] ("f", "I") :=
    ⟨[("f", "I")], [], rfl, by decide, List.mem_cons_self⟩
  exact ⟨⟨info, hparse, hdistinct⟩, (hrefused "f" "I").2 (.inl hfirst)⟩

end ClassInfo

end ClassDelta
