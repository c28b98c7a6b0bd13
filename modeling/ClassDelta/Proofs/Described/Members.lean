import ClassDelta.Proofs.Classification

/-!
# Members of classes that were read

Resolving the members of a class ends with a check that no name and descriptor
comes twice, for fields and for methods.  `Member.checkDistinct_eq_ok_iff` says
what passes the check, `ClassInfo.resolveAll_of_ofClassFile` that a class that
could be described has all of its members from this, and
`ClassInfo.hasDistinctMembers_of_parse` that every class that could be read has
passed the check.
-/

namespace ClassDelta

/-- What a sequence of two steps gives, the second step gives for what the first
one gave. -/
theorem exists_of_bind_eq_ok {ε α β : Type} {first : Except ε α} {next : α → Except ε β}
    {result : β} (h : first >>= next = .ok result) :
    ∃ value, first = .ok value ∧ next value = .ok result := by
  cases first with
  | error _ => cases h
  | ok value => exact ⟨value, rfl, h⟩

theorem bind_of_eq_ok {ε α β : Type} {first : Except ε α} {value : α} (h : first = .ok value)
    (next : α → Except ε β) : first >>= next = next value := by
  rw [h]
  rfl

/-- A sequence fails where its first step does, or where the second one does. -/
theorem bind_eq_error_iff {ε α β : Type} {first : Except ε α} {next : α → Except ε β} {error : ε} :
    first >>= next = .error error ↔
      first = .error error ∨ ∃ value, first = .ok value ∧ next value = .error error := by
  cases first with
  | error found =>
    show Except.error found = .error error ↔ _
    simp
  | ok value =>
    show next value = .error error ↔ _
    simp

/-! ## The check for repetitions -/

namespace Member

/-- No key is repeated where the keys are distinct and have not been seen. -/
theorem repeatedKey?_eq_none_iff (seen keys : List (String × String)) :
    repeatedKey? seen keys = none ↔ keys.Nodup ∧ ∀ key ∈ keys, key ∉ seen := by
  induction keys generalizing seen with
  | nil => simp [repeatedKey?]
  | cons key later ih =>
    rw [repeatedKey?]
    by_cases hseen : key ∈ seen
    · simp [hseen]
    · have hcontains : ¬ seen.contains key = true := by simpa using hseen
      rw [if_neg hcontains, ih, List.nodup_cons]
      simp only [List.mem_cons, not_or, forall_eq_or_imp, hseen, not_false_eq_true, true_and]
      constructor
      · intro ⟨hnodup, hall⟩
        exact ⟨⟨fun hmem => (hall key hmem).1 rfl, hnodup⟩, fun other hmem => (hall other hmem).2⟩
      · intro ⟨⟨hnotMem, hnodup⟩, hall⟩
        exact ⟨hnodup, fun other hmem => ⟨fun heq => hnotMem (heq ▸ hmem), hall other hmem⟩⟩

theorem repeatedKey?_eq_none_iff_nodup (keys : List (String × String)) :
    repeatedKey? [] keys = none ↔ keys.Nodup := by
  rw [repeatedKey?_eq_none_iff]
  simp

variable {kind : MemberKind}

theorem checkDistinct_eq_ok_iff {members : List (Member kind)} :
    checkDistinct members = .ok () ↔ (members.map key).Nodup := by
  rw [← repeatedKey?_eq_none_iff_nodup, checkDistinct]
  cases repeatedKey? [] (members.map key) <;> simp

theorem resolveAll_eq_ok_iff {owner : String} {pool : Pool} {raws : List (RawMember kind.scope)}
    {members : List (Member kind)} :
    resolveAll kind owner pool raws = .ok members ↔
      raws.mapM (ofRaw owner pool) = .ok members ∧ (members.map key).Nodup := by
  constructor
  · intro h
    obtain ⟨resolved, hresolved, h⟩ := exists_of_bind_eq_ok h
    obtain ⟨⟨⟩, hcheck, h⟩ := exists_of_bind_eq_ok h
    cases h
    exact ⟨hresolved, checkDistinct_eq_ok_iff.1 hcheck⟩
  · intro ⟨hresolved, hdistinct⟩
    rw [resolveAll, bind_of_eq_ok hresolved, bind_of_eq_ok (checkDistinct_eq_ok_iff.2 hdistinct)]
    rfl

end Member

/-! ## Classes that were read -/

/-- The members of one kind. -/
def ClassFile.members (file : ClassFile) : (kind : MemberKind) → List (RawMember kind.scope)
  | .field => file.fields
  | .method => file.methods

namespace ClassInfo

/-- The members of a class that was described are those of its file, resolved for the
name of the class. -/
theorem resolveAll_of_ofClassFile {file : ClassFile} {info : ClassInfo}
    (h : ofClassFile file = .ok info) :
    file.pool.className file.thisClass = .ok info.name ∧
      ∀ kind, Member.resolveAll kind info.name file.pool (file.members kind) =
        .ok (info.members kind) := by
  obtain ⟨name, hname, h⟩ := exists_of_bind_eq_ok h
  obtain ⟨superClass, -, h⟩ := exists_of_bind_eq_ok h
  obtain ⟨interfaces, -, h⟩ := exists_of_bind_eq_ok h
  obtain ⟨fields, hfields, h⟩ := exists_of_bind_eq_ok h
  obtain ⟨methods, hmethods, h⟩ := exists_of_bind_eq_ok h
  obtain ⟨outerClass, -, h⟩ := exists_of_bind_eq_ok h
  obtain ⟨signature, -, h⟩ := exists_of_bind_eq_ok h
  obtain ⟨syntheticAttribute, -, h⟩ := exists_of_bind_eq_ok h
  obtain ⟨deprecated, -, h⟩ := exists_of_bind_eq_ok h
  cases h
  refine ⟨hname, fun kind => ?_⟩
  cases kind with
  | field => exact hfields
  | method => exact hmethods

theorem hasDistinctMembers_of_ofClassFile {file : ClassFile} {info : ClassInfo}
    (h : ofClassFile file = .ok info) : info.HasDistinctMembers := by
  intro kind
  have hresolved := (resolveAll_of_ofClassFile h).2 kind
  exact (Member.resolveAll_eq_ok_iff.1 hresolved).2

/-- Whatever the bytes were, a class that was read has distinct members. -/
theorem hasDistinctMembers_of_parse {supported : VersionRange} {bytes : Bytes} {info : ClassInfo}
    (h : parse supported bytes = .ok info) : info.HasDistinctMembers := by
  obtain ⟨file, -, h⟩ := exists_of_bind_eq_ok h
  exact hasDistinctMembers_of_ofClassFile h

end ClassInfo

end ClassDelta
