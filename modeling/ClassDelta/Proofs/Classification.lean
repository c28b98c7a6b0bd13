import ClassDelta.Classification

/-!
# The classification of a member

A class is classified as a whole, into a list of identities.  Where members of
one kind are distinct in name and descriptor, every member finds its own entry
in that list: `ClassifiedClass.classify_ofInfo`.

What the entry says follows from the member by rules of which the first one that
applies decides (`Member.classification_eq`).  Both together are
`Classifications.ofMember_ofInfo`.
-/

namespace ClassDelta

/-! ## Members by kind -/

namespace ClassInfo

/-- The members of one kind. -/
def members (info : ClassInfo) : (kind : MemberKind) → List (Member kind)
  | .field => info.fields
  | .method => info.methods

/-- No two members of one kind have the same name and descriptor. -/
def HasDistinctMembers (info : ClassInfo) : Prop :=
  ∀ kind, ((info.members kind).map Member.key).Nodup

instance (info : ClassInfo) : Decidable info.HasDistinctMembers :=
  decidable_of_iff ((info.fields.map Member.key).Nodup ∧ (info.methods.map Member.key).Nodup)
    ⟨fun h kind => match kind with
      | .field => h.1
      | .method => h.2,
    fun h => ⟨h .field, h .method⟩⟩

end ClassInfo

/-! ## Looking up a member -/

/-- Where keys are distinct, every entry is found. -/
theorem lookup_eq_some_of_mem {α β : Type} [BEq α] [LawfulBEq α] {entries : List (α × β)}
    (hdistinct : (entries.map Prod.fst).Nodup) {key : α} {value : β}
    (hmem : (key, value) ∈ entries) : entries.lookup key = some value := by
  obtain ⟨before, after, rfl⟩ := List.append_of_mem hmem
  rw [List.lookup_eq_some_iff]
  refine ⟨before, after, rfl, fun entry hentry => bne_iff_ne.2 ?_⟩
  rintro rfl
  rw [List.map_append, List.map_cons, List.nodup_append] at hdistinct
  exact hdistinct.2.2 _ (List.mem_map_of_mem hentry) _ List.mem_cons_self rfl

namespace Member

variable {kind : MemberKind}

theorem id_eq_iff (member other : Member kind) : member.id = other.id ↔ member.key = other.key := by
  simp [id, key]

/-- Members that are distinct in name and descriptor have distinct identities. -/
theorem nodup_map_id {members : List (Member kind)} (hdistinct : (members.map key).Nodup) :
    (members.map id).Nodup := by
  rw [List.nodup_iff_pairwise_ne, List.pairwise_map] at hdistinct ⊢
  exact hdistinct.imp fun hne heq => hne ((id_eq_iff _ _).1 heq)

end Member

namespace Classifications

/-- Identities are distinct in the classification of a class, as fields are not
methods. -/
theorem nodup_ofInfo {info : ClassInfo} (hdistinct : info.HasDistinctMembers) :
    ((ofInfo info).members.map Prod.fst).Nodup := by
  have hids : (ofInfo info).members.map Prod.fst =
      info.fields.map Member.id ++ info.methods.map Member.id := by
    simp [ofInfo, Function.comp_def]
  rw [hids, List.nodup_append]
  refine ⟨Member.nodup_map_id (hdistinct .field), Member.nodup_map_id (hdistinct .method), ?_⟩
  intro fieldId hfield methodId hmethod heq
  obtain ⟨field, -, rfl⟩ := List.mem_map.1 hfield
  obtain ⟨method, -, rfl⟩ := List.mem_map.1 hmethod
  have hkind : MemberKind.field = .method := congrArg MemberId.kind heq
  cases hkind

theorem mem_ofInfo {info : ClassInfo} {kind : MemberKind} {member : Member kind}
    (hmem : member ∈ info.members kind) :
    (member.id, member.classification info.hasOuterClass) ∈ (ofInfo info).members := by
  unfold ofInfo
  cases kind with
  | field => exact List.mem_append_left _ (List.mem_map.2 ⟨member, hmem, rfl⟩)
  | method => exact List.mem_append_right _ (List.mem_map.2 ⟨member, hmem, rfl⟩)

end Classifications

namespace ClassifiedClass

/-- A member of a class is classified by its own properties. -/
theorem classify_ofInfo {info : ClassInfo} (hdistinct : info.HasDistinctMembers)
    {kind : MemberKind} {member : Member kind} (hmem : member ∈ info.members kind) :
    (ofInfo info).classify member = member.classification info.hasOuterClass := by
  have hnodup := Classifications.nodup_ofInfo hdistinct
  have hlookup := lookup_eq_some_of_mem
    (by rw [List.map_reverse]; exact (List.reverse_perm _).nodup_iff.2 hnodup)
    (List.mem_reverse.2 (Classifications.mem_ofInfo hmem))
  unfold classify Classifications.ofMember
  show (List.lookup member.id (Classifications.ofInfo info).members.reverse).getD _ = _
  rw [hlookup]
  rfl

end ClassifiedClass

/-! ## Names that compilers give -/

/-- The name is the stem, an ASCII digit, and anything. -/
def IsNumbered (stem name : String) : Prop :=
  ∃ (digit : Char) (rest : String), ('0' ≤ digit ∧ digit ≤ '9') ∧
    name = stem ++ String.singleton digit ++ rest

theorem isDigit_iff (character : Char) :
    character.isDigit = true ↔ '0' ≤ character ∧ character ≤ '9' := by
  simp only [Char.isDigit, Bool.and_eq_true, decide_eq_true_eq, Char.le_def]

theorem hasNumberedName_iff (stem name : String) :
    hasNumberedName stem name = true ↔ IsNumbered stem name := by
  simp only [hasNumberedName, Bool.and_eq_true, List.isPrefixOf_iff_prefix]
  constructor
  · intro ⟨⟨later, hlater⟩, hdigit⟩
    rw [← hlater, List.drop_left] at hdigit
    cases later with
    | nil => cases hdigit
    | cons digit rest =>
      refine ⟨digit, String.ofList rest, (isDigit_iff digit).1 hdigit, ?_⟩
      rw [← String.toList_inj, ← hlater]
      simp
  · intro ⟨digit, rest, hdigit, hname⟩
    have hlist : name.toList = stem.toList ++ digit :: rest.toList := by
      rw [hname]
      simp
    rw [hlist, List.drop_left]
    exact ⟨List.prefix_append _ _, (isDigit_iff digit).2 hdigit⟩

instance (stem name : String) : Decidable (IsNumbered stem name) :=
  decidable_of_iff _ (hasNumberedName_iff stem name)

namespace Member

variable {kind : MemberKind}

/-- The member is a method with the bridge flag. -/
def IsBridging (member : Member kind) : Prop :=
  kind = .method ∧ member.flags.has AccessBit.bridge = true

/-- The member has the flag or the attribute of what compilers insert. -/
def IsMarked (member : Member kind) : Prop :=
  member.flags.has AccessBit.synthetic = true ∨ member.syntheticAttribute = true

/-- The member is a field called like the instance around an instance of a nested
class, or a method called like an accessor for nested classes. -/
def IsConventional (nested : Bool) (member : Member kind) : Prop :=
  kind = .field ∧ nested = true ∧ IsNumbered "this$" member.name ∨
    kind = .method ∧ IsNumbered "access$" member.name

instance (member : Member kind) : Decidable member.IsBridging :=
  inferInstanceAs (Decidable (_ ∧ _))

instance (member : Member kind) : Decidable member.IsMarked :=
  inferInstanceAs (Decidable (_ ∨ _))

instance (nested : Bool) (member : Member kind) : Decidable (member.IsConventional nested) :=
  inferInstanceAs (Decidable (_ ∨ _))

theorem isMarkedSynthetic_iff (member : Member kind) :
    member.isMarkedSynthetic = true ↔ member.IsMarked := by
  rw [isMarkedSynthetic, Bool.or_eq_true, IsMarked]

/-- The first rule that applies decides. -/
theorem classification_eq (nested : Bool) (member : Member kind) :
    member.classification nested =
      if member.IsBridging then .bridge
      else if member.IsMarked ∨ member.IsConventional nested then .compilerSynthetic
      else .sourceDeclared := by
  cases kind with
  | field =>
    have hnot : ¬ member.IsBridging := by
      intro hbridging
      cases hbridging.1
    have hname : member.IsConventional nested ↔
        nested = true ∧ hasNumberedName "this$" member.name = true := by
      simp [IsConventional, hasNumberedName_iff]
    rw [if_neg hnot, classification]
    simp only [Bool.or_eq_true, Bool.and_eq_true, isMarkedSynthetic_iff, hname]
  | method =>
    have hbridging : member.IsBridging ↔ isBridge member = true := by
      simp [IsBridging, isBridge]
    have hname : member.IsConventional nested ↔ hasNumberedName "access$" member.name = true := by
      simp [IsConventional, hasNumberedName_iff]
    rw [classification]
    simp only [Bool.or_eq_true, isMarkedSynthetic_iff, hbridging, hname]

end Member

/-! ## All identities -/

namespace Classifications

theorem ofMember_of_mem {info : ClassInfo} (hdistinct : info.HasDistinctMembers)
    {kind : MemberKind} {member : Member kind} (hmem : member ∈ info.members kind) :
    (ofInfo info).ofMember member.id = member.classification info.hasOuterClass :=
  ClassifiedClass.classify_ofInfo hdistinct hmem

/-- What is not listed counts as declared. -/
theorem ofMember_of_not_mem {info : ClassInfo} {id : MemberId}
    (h : ∀ kind, ∀ member ∈ info.members kind, member.id ≠ id) :
    (ofInfo info).ofMember id = .sourceDeclared := by
  have hnone : (ofInfo info).members.reverse.lookup id = none := by
    rw [List.lookup_eq_none_iff]
    intro entry hentry
    rw [List.mem_reverse, ofInfo, List.mem_append] at hentry
    rcases hentry with hfield | hmethod
    · obtain ⟨field, hmem, rfl⟩ := List.mem_map.1 hfield
      exact bne_iff_ne.2 (h .field field hmem).symm
    · obtain ⟨method, hmem, rfl⟩ := List.mem_map.1 hmethod
      exact bne_iff_ne.2 (h .method method hmem).symm
  rw [ofMember, hnone]
  rfl

/-- Every member is classified by the first rule that applies to it.  Another class
with the same member comes to the same result if it is nested as well or not nested
either, whatever its other members are; and what is no member is declared. -/
theorem ofMember_ofInfo {info : ClassInfo} (hdistinct : info.HasDistinctMembers) :
    (∀ kind, ∀ member ∈ info.members kind,
      (ofInfo info).ofMember member.id =
        if member.IsBridging then .bridge
        else if member.IsMarked ∨ member.IsConventional info.outerClass.isSome then
          .compilerSynthetic
        else .sourceDeclared) ∧
    (∀ other : ClassInfo, other.HasDistinctMembers →
      other.outerClass.isSome = info.outerClass.isSome →
      ∀ kind, ∀ member ∈ info.members kind, member ∈ other.members kind →
        (ofInfo other).ofMember member.id = (ofInfo info).ofMember member.id) ∧
    ∀ id, (∀ kind, ∀ member ∈ info.members kind, member.id ≠ id) →
      (ofInfo info).ofMember id = .sourceDeclared := by
  refine ⟨?_, ?_, fun id => ofMember_of_not_mem⟩
  · intro kind member hmem
    rw [ofMember_of_mem hdistinct hmem, Member.classification_eq]
    rfl
  · intro other hother hnested kind member hmem hmem'
    rw [ofMember_of_mem hother hmem', ofMember_of_mem hdistinct hmem, ClassInfo.hasOuterClass,
      hnested, ClassInfo.hasOuterClass]

/-- A field and a method of a nested class that go by the same name and descriptor:
the field is called like an outer instance, and the method is a bridge although it
has the synthetic flag. -/
theorem ofMember_ofInfo_namesakes :
    let field : FieldInfo := ⟨"A$B", "this$0x", "()V", .ofBits 0x0010, none, none, false, false⟩
    let method : MethodInfo := ⟨"A$B", "this$0x", "()V", .ofBits 0x1041, none, [], false, false⟩
    let info : ClassInfo :=
      { name := "A$B", version := ⟨52, 0⟩, flags := .ofBits 0x0020, superClass := none,
        interfaces := [], fields := [field], methods := [method], outerClass := some "A",
        signature := none, syntheticAttribute := false, deprecated := false }
    info.HasDistinctMembers ∧
      (ofInfo info).ofMember field.id = .compilerSynthetic ∧
      (ofInfo info).ofMember method.id = .bridge ∧
      (ofInfo { info with methods := [] }).ofMember field.id = .compilerSynthetic ∧
      (ofInfo info).ofMember ⟨.field, "this$0x", "I"⟩ = .sourceDeclared := by
  intro field method info
  have hdistinct : info.HasDistinctMembers := by decide
  obtain ⟨hrule, hothers, hmissing⟩ := ofMember_ofInfo hdistinct
  have hfield : (ofInfo info).ofMember field.id = .compilerSynthetic :=
    (hrule .field field List.mem_cons_self).trans (by decide)
  have hmethod : (ofInfo info).ofMember method.id = .bridge :=
    (hrule .method method List.mem_cons_self).trans (by decide)
  have hsame := hothers { info with methods := [] } (by decide) rfl .field field
    List.mem_cons_self List.mem_cons_self
  refine ⟨hdistinct, hfield, hmethod, hsame.trans hfield, hmissing _ ?_⟩
  intro kind member hmem
  cases kind with
  | field =>
    obtain rfl := List.mem_singleton.1 hmem
    decide
  | method =>
    obtain rfl := List.mem_singleton.1 hmem
    decide

end Classifications

end ClassDelta
