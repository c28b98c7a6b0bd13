import ClassDelta.Diff

/-!
# When there is nothing to list

Two versions of a member or of a class header *agree* when every aspect that
is compared is the same, exceptions and interfaces being sets.  The lists of
deltas are empty exactly then: `Member.deltas_eq_nil_iff` and
`ClassHeader.deltas_eq_nil_iff`.
-/

namespace ClassDelta

/-- The two lists have the same elements. -/
def SameSet (old new : List String) : Prop := ∀ text, text ∈ old ↔ text ∈ new

instance (old new : List String) : Decidable (SameSet old new) :=
  decidable_of_iff ((∀ text ∈ old, text ∈ new) ∧ ∀ text ∈ new, text ∈ old)
    ⟨fun h text => ⟨h.1 text, h.2 text⟩, fun h => ⟨fun text => (h text).1, fun text => (h text).2⟩⟩

/-! ## Agreement -/

namespace MemberKind

/-- Constants are compared as they are, and exceptions as sets. -/
def SameDetail : (kind : MemberKind) → (old new : kind.Detail) → Prop
  | field, old, new => old = new
  | method, old, new => SameSet old new

instance (kind : MemberKind) (old new : kind.Detail) : Decidable (kind.SameDetail old new) :=
  match kind with
  | field => inferInstanceAs (Decidable (old = new))
  | method => inferInstanceAs (Decidable (SameSet old new))

end MemberKind

/-- Two versions of a member that differ in nothing that is compared. -/
structure Member.Agrees {kind : MemberKind} (old new : Member kind) : Prop where
  flags : old.flags = new.flags
  signature : old.signature = new.signature
  detail : kind.SameDetail old.detail new.detail
  deprecated : old.deprecated = new.deprecated

instance {kind : MemberKind} (old new : Member kind) : Decidable (old.Agrees new) :=
  decidable_of_iff (old.flags = new.flags ∧ old.signature = new.signature ∧
      kind.SameDetail old.detail new.detail ∧ old.deprecated = new.deprecated)
    ⟨fun ⟨h, h', h'', h'''⟩ => ⟨h, h', h'', h'''⟩, fun ⟨h, h', h'', h'''⟩ => ⟨h, h', h'', h'''⟩⟩

/-- Two versions of a class header that differ in nothing that is compared. -/
structure ClassHeader.Agrees (old new : ClassHeader) : Prop where
  flags : old.flags = new.flags
  superClass : old.superClass = new.superClass
  interfaces : SameSet old.interfaces new.interfaces
  signature : old.signature = new.signature
  version : old.version = new.version
  outerClass : old.outerClass = new.outerClass
  deprecated : old.deprecated = new.deprecated

instance (old new : ClassHeader) : Decidable (old.Agrees new) :=
  decidable_of_iff (old.flags = new.flags ∧ old.superClass = new.superClass ∧
      SameSet old.interfaces new.interfaces ∧ old.signature = new.signature ∧
      old.version = new.version ∧ old.outerClass = new.outerClass ∧
      old.deprecated = new.deprecated)
    ⟨fun ⟨flags, superClass, interfaces, signature, version, outerClass, deprecated⟩ =>
        ⟨flags, superClass, interfaces, signature, version, outerClass, deprecated⟩,
      fun ⟨flags, superClass, interfaces, signature, version, outerClass, deprecated⟩ =>
        ⟨flags, superClass, interfaces, signature, version, outerClass, deprecated⟩⟩

theorem SameSet.refl (texts : List String) : SameSet texts texts := fun _ => Iff.rfl

theorem MemberKind.SameDetail.refl (kind : MemberKind) (detail : kind.Detail) :
    kind.SameDetail detail detail := by
  cases kind with
  | field => exact Eq.refl detail
  | method => exact SameSet.refl detail

theorem Member.Agrees.refl {kind : MemberKind} (member : Member kind) : member.Agrees member :=
  ⟨rfl, rfl, .refl kind member.detail, rfl⟩

theorem ClassHeader.Agrees.refl (header : ClassHeader) : header.Agrees header :=
  ⟨rfl, rfl, .refl header.interfaces, rfl, rfl, rfl, rfl⟩

/-! ## Sets of texts -/

@[simp] theorem mem_insertAscending (text new : String) (texts : List String) :
    text ∈ insertAscending new texts ↔ text = new ∨ text ∈ texts := by
  induction texts with
  | nil => simp [insertAscending]
  | cons first later ih =>
    unfold insertAscending
    split
    · simp
    · split
      · rename_i heq
        simp [heq]
      · simp only [List.mem_cons, ih]
        exact ⟨fun h => by rcases h with h | h | h <;> simp [h],
          fun h => by rcases h with h | h | h <;> simp [h]⟩

@[simp] theorem mem_ascending (text : String) (texts : List String) :
    text ∈ ascending texts ↔ text ∈ texts := by
  induction texts with
  | nil => simp [ascending]
  | cons first later ih =>
    show text ∈ insertAscending first (ascending later) ↔ _
    rw [mem_insertAscending, ih, List.mem_cons]

/-- Nothing is gained and nothing is lost between equal sets only. -/
theorem SetDelta.isEmpty_betweenSets (old new : List String) :
    (SetDelta.betweenSets old new).isEmpty = true ↔ SameSet old new := by
  simp only [SetDelta.isEmpty, SetDelta.betweenSets, SetDelta.between, Bool.and_eq_true,
    List.isEmpty_iff, List.filter_eq_nil_iff, mem_ascending, List.contains_eq_mem,
    Bool.not_eq_true', decide_eq_false_iff_not, Classical.not_not]
  exact ⟨fun h text => ⟨h.2 text, h.1 text⟩,
    fun h => ⟨fun text => (h text).2, fun text => (h text).1⟩⟩

/-! ## Deltas -/

namespace Delta

theorem ofValues_eq_nil_iff {α : Type} [DecidableEq α] (build : Replaced α → Delta) (old new : α) :
    ofValues build old new = [] ↔ old = new := by
  unfold ofValues
  split <;> simp_all

theorem ofSets_eq_nil_iff (build : SetDelta → Delta) (old new : List String) :
    ofSets build old new = [] ↔ SameSet old new := by
  rw [← SetDelta.isEmpty_betweenSets, ofSets]
  simp

theorem ofFlags_eq_nil_iff {scope : FlagScope} (old new : Flags scope) :
    ofFlags old new = [] ↔ old = new := by
  unfold ofFlags
  split <;> simp_all

end Delta

theorem MemberKind.detailDeltas_eq_nil_iff (kind : MemberKind) (old new : kind.Detail) :
    kind.detailDeltas old new = [] ↔ kind.SameDetail old new := by
  cases kind with
  | field => exact Delta.ofValues_eq_nil_iff _ old new
  | method => exact Delta.ofSets_eq_nil_iff _ old new

/-- No aspect of a member is listed when the two versions agree. -/
theorem Member.deltas_eq_nil_iff {kind : MemberKind} (old new : Member kind) :
    old.deltas new = [] ↔ old.Agrees new := by
  simp only [deltas, List.append_eq_nil_iff, Delta.ofFlags_eq_nil_iff, Delta.ofValues_eq_nil_iff,
    MemberKind.detailDeltas_eq_nil_iff]
  constructor
  · rintro ⟨⟨⟨hflags, hsignature⟩, hdetail⟩, hdeprecated⟩
    exact ⟨hflags, hsignature, hdetail, hdeprecated⟩
  · rintro ⟨hflags, hsignature, hdetail, hdeprecated⟩
    exact ⟨⟨⟨hflags, hsignature⟩, hdetail⟩, hdeprecated⟩

/-- No aspect of a class header is listed when the two versions agree. -/
theorem ClassHeader.deltas_eq_nil_iff (old new : ClassHeader) :
    old.deltas new = [] ↔ old.Agrees new := by
  simp only [deltas, List.append_eq_nil_iff, Delta.ofFlags_eq_nil_iff, Delta.ofValues_eq_nil_iff,
    Delta.ofSets_eq_nil_iff]
  constructor
  · rintro ⟨⟨⟨⟨⟨⟨hflags, hsuper⟩, hinterfaces⟩, hsignature⟩, hversion⟩, houter⟩, hdeprecated⟩
    exact ⟨hflags, hsuper, hinterfaces, hsignature, hversion, houter, hdeprecated⟩
  · rintro ⟨hflags, hsuper, hinterfaces, hsignature, hversion, houter, hdeprecated⟩
    exact ⟨⟨⟨⟨⟨⟨hflags, hsuper⟩, hinterfaces⟩, hsignature⟩, hversion⟩, houter⟩, hdeprecated⟩

end ClassDelta
