import ClassDelta.Proofs.AccessFlags
import ClassDelta.Proofs.Diff.Deltas
import Mathlib.Data.Finset.SDiff
import Mathlib.Data.Finset.Dedup

/-!
# Applying deltas

A list of deltas should say all about a difference and nothing else.  What it
says is tested by carrying it out: `Delta.carryOut?` takes what a delta removes out
of the old side's aspects and puts in what it adds, and refuses when the old
side is not as the delta has it.

Each aspect that is compared gives no delta or one, which is a `Delta.Step`
(`step_ofValues`, `step_ofSets`, `step_ofFlags`).  The deltas of a member or of
a class are such steps in a row, each for an aspect of its own.  `Delta.Bridges`
is what they come to in the end, and `Delta.bridges_members_and_classes` says it
of fields, methods and classes.
-/

namespace ClassDelta

/-! ## Aspects -/

/-- The aspect that a delta is about. -/
inductive DeltaKind
  | flags
  | signature
  | exceptions
  | constantValue
  | deprecated
  | superClass
  | interfaces
  | version
  | outerClass
deriving DecidableEq

/-- What deltas are about, sets being sets.  Members and classes have some of it
each, and leave the rest empty. -/
structure Aspects where
  flagNames : Finset String
  signature : Option String
  exceptions : Finset String := ∅
  constantValue : Option String := none
  deprecated : Bool
  superClass : Option String := none
  interfaces : Finset String := ∅
  version : Option Version := none
  outerClass : Option String := none

namespace MemberKind

/-- The aspect that only members of the kind have. -/
def detailKind : MemberKind → DeltaKind
  | field => .constantValue
  | method => .exceptions

/-- The literal of a constant field. -/
def literal? : (kind : MemberKind) → kind.Detail → Option String
  | field, literal => literal
  | method, _ => none

/-- The exceptions of a method. -/
def exceptionSet : (kind : MemberKind) → kind.Detail → Finset String
  | field, _ => ∅
  | method, classes => classes.toFinset

end MemberKind

namespace Member

variable {kind : MemberKind}

/-- The aspects of a member that are compared, in the order of their deltas. -/
def deltaKinds (kind : MemberKind) : List DeltaKind :=
  [.flags, .signature, kind.detailKind, .deprecated]

/-- Two versions of a member differ in the aspect. -/
def Differs (old new : Member kind) : DeltaKind → Prop
  | .flags => old.flags.bits ≠ new.flags.bits
  | .signature => old.signature ≠ new.signature
  | .deprecated => old.deprecated ≠ new.deprecated
  | aspect => aspect = kind.detailKind ∧ ¬ kind.SameDetail old.detail new.detail

def aspects (member : Member kind) : Aspects where
  flagNames := member.flags.names.toFinset
  signature := member.signature
  exceptions := kind.exceptionSet member.detail
  constantValue := kind.literal? member.detail
  deprecated := member.deprecated

end Member

namespace ClassHeader

/-- The aspects of a class that are compared, in the order of their deltas. -/
def deltaKinds : List DeltaKind :=
  [.flags, .superClass, .interfaces, .signature, .version, .outerClass, .deprecated]

/-- Two versions of a class differ in the aspect. -/
def Differs (old new : ClassHeader) : DeltaKind → Prop
  | .flags => old.flags.bits ≠ new.flags.bits
  | .superClass => old.superClass ≠ new.superClass
  | .interfaces => ¬ SameSet old.interfaces new.interfaces
  | .signature => old.signature ≠ new.signature
  | .version => old.version ≠ new.version
  | .outerClass => old.outerClass ≠ new.outerClass
  | .deprecated => old.deprecated ≠ new.deprecated
  | .exceptions | .constantValue => False

def aspects (header : ClassHeader) : Aspects where
  flagNames := header.flags.names.toFinset
  signature := header.signature
  deprecated := header.deprecated
  superClass := header.superClass
  interfaces := header.interfaces.toFinset
  version := some header.version
  outerClass := header.outerClass

end ClassHeader

/-! ## What deltas do -/

namespace SetDelta

/-- Take out what was removed and put in what was added.  The former has to be
there and the latter must not. -/
def carryOut? (delta : SetDelta) (texts : Finset String) : Option (Finset String) :=
  if (∀ text ∈ delta.removed, text ∈ texts) ∧ ∀ text ∈ delta.added, text ∉ texts then
    some (texts \ delta.removed.toFinset ∪ delta.added.toFinset)
  else none

/-- Something was added or removed, and nothing both. -/
def IsEffective (delta : SetDelta) : Prop :=
  List.Disjoint delta.added delta.removed ∧ ¬ (delta.added = [] ∧ delta.removed = [])

/-- The texts on both sides ascend strictly. -/
def IsAscending (delta : SetDelta) : Prop :=
  delta.added.Pairwise (· < ·) ∧ delta.removed.Pairwise (· < ·)

end SetDelta

namespace Replaced

variable {α : Type} [DecidableEq α]

/-- Replace the old value, and no other. -/
def carryOut? (replaced : Replaced α) (value : α) : Option α :=
  if value = replaced.old then some replaced.new else none

end Replaced

namespace Delta

def kind : Delta → DeltaKind
  | flags _ => .flags
  | signature _ => .signature
  | exceptions _ => .exceptions
  | constantValue _ => .constantValue
  | deprecated _ => .deprecated
  | superClass _ => .superClass
  | interfaces _ => .interfaces
  | version _ => .version
  | outerClass _ => .outerClass

/-- The delta says that something is different. -/
def IsEffective : Delta → Prop
  | flags names => names.IsEffective
  | exceptions classes | interfaces classes => classes.IsEffective
  | signature value | constantValue value | superClass value | outerClass value =>
    value.old ≠ value.new
  | deprecated mark => mark.old ≠ mark.new
  | version replaced => replaced.old ≠ replaced.new

/-- The delta lists the classes of a set in ascending order. -/
def IsAscending : Delta → Prop
  | exceptions classes | interfaces classes => classes.IsAscending
  | _ => True

/-- Carry the delta out on its aspect, if that is as the delta has it. -/
def carryOut? (aspects : Aspects) : Delta → Option Aspects
  | flags names => do return { aspects with flagNames := ← names.carryOut? aspects.flagNames }
  | signature value => do return { aspects with signature := ← value.carryOut? aspects.signature }
  | exceptions classes => do
    return { aspects with exceptions := ← classes.carryOut? aspects.exceptions }
  | constantValue literal => do
    return { aspects with constantValue := ← literal.carryOut? aspects.constantValue }
  | deprecated mark => do return { aspects with deprecated := ← mark.carryOut? aspects.deprecated }
  | superClass name => do return { aspects with superClass := ← name.carryOut? aspects.superClass }
  | interfaces classes => do
    return { aspects with interfaces := ← classes.carryOut? aspects.interfaces }
  | version replaced => do
    return { aspects with version := some (← replaced.carryOut? (← aspects.version)) }
  | outerClass name => do return { aspects with outerClass := ← name.carryOut? aspects.outerClass }

/-- Carry out one delta after the other. -/
def carryOutAll? (deltas : List Delta) (aspects : Aspects) : Option Aspects :=
  deltas.foldlM carryOut? aspects

/-- The deltas are all there is between two sides, which differ in the given
kinds of aspects. -/
structure Bridges (kinds : List DeltaKind) (differs : DeltaKind → Prop) (deltas : List Delta)
    (old new : Aspects) : Prop where
  /-- No kind comes twice, and the kinds come in a fixed order. -/
  nodup_kinds : kinds.Nodup
  inOrder : (deltas.map kind).Sublist kinds
  mem_iff : ∀ aspect, aspect ∈ deltas.map kind ↔ aspect ∈ kinds ∧ differs aspect
  isEffective : ∀ delta ∈ deltas, delta.IsEffective
  isAscending : ∀ delta ∈ deltas, delta.IsAscending
  carryOutAll? : carryOutAll? deltas old = some new

/-- The delta is about the aspect and leads from the one side to the other. -/
structure Leads (delta : Delta) (aspect : DeltaKind) (old new : Aspects) : Prop where
  kind_eq : delta.kind = aspect
  isEffective : delta.IsEffective
  isAscending : delta.IsAscending
  carryOut?_eq : carryOut? old delta = some new

/-- What a single aspect gives: no delta if it is the same on both sides, and one
if it differs. -/
inductive Step (aspect : DeltaKind) (differs : Prop) : List Delta → Aspects → Aspects → Prop
  | same (hsame : ¬ differs) (aspects : Aspects) : Step aspect differs [] aspects aspects
  | delta {delta : Delta} {old new : Aspects} (hdiffers : differs)
    (hleads : delta.Leads aspect old new) : Step aspect differs [delta] old new

/-! ## Steps in a row -/

section Rows

variable {kinds : List DeltaKind} {aspect : DeltaKind} {differs : DeltaKind → Prop}
  {deltas part : List Delta} {old between new : Aspects}

theorem bridges_nil (aspects : Aspects) : Bridges [] differs [] aspects aspects where
  nodup_kinds := List.nodup_nil
  inOrder := .slnil
  mem_iff := by simp
  isEffective := by simp
  isAscending := by simp
  carryOutAll? := rfl

/-- One more aspect, which was not there before. -/
theorem Bridges.step (h : Bridges kinds differs deltas old between)
    (hstep : Step aspect (differs aspect) part between new) (hnew : aspect ∉ kinds) :
    Bridges (kinds ++ [aspect]) differs (deltas ++ part) old new := by
  have hnodup : (kinds ++ [aspect]).Nodup := by
    rw [← List.concat_eq_append]
    exact h.nodup_kinds.concat hnew
  cases hstep with
  | same hsame =>
    rw [List.append_nil]
    refine ⟨hnodup, h.inOrder.trans (List.sublist_append_left _ _), fun other => ?_,
      h.isEffective, h.isAscending, h.carryOutAll?⟩
    rw [h.mem_iff, List.mem_append, List.mem_singleton]
    constructor
    · exact fun hother => ⟨.inl hother.1, hother.2⟩
    · rintro ⟨hmem | rfl, hdiffers⟩
      · exact ⟨hmem, hdiffers⟩
      · exact absurd hdiffers hsame
  | @delta delta _ _ hdiffers hleads =>
    have hall {property : Delta → Prop} (hdeltas : ∀ other ∈ deltas, property other)
        (hdelta : property delta) : ∀ other ∈ deltas ++ [delta], property other := by
      intro other hother
      rcases List.mem_append.1 hother with hmem | hlast
      · exact hdeltas other hmem
      · exact List.mem_singleton.1 hlast ▸ hdelta
    refine ⟨hnodup, ?_, fun other => ?_, hall h.isEffective hleads.isEffective,
      hall h.isAscending hleads.isAscending, ?_⟩
    · rw [List.map_append, List.map_singleton, hleads.kind_eq]
      exact h.inOrder.append (List.Sublist.refl _)
    · rw [List.map_append, List.map_singleton, hleads.kind_eq, List.mem_append, List.mem_append,
        List.mem_singleton, h.mem_iff]
      constructor
      · rintro (⟨hmem, hother⟩ | rfl)
        · exact ⟨.inl hmem, hother⟩
        · exact ⟨.inr rfl, hdiffers⟩
      · rintro ⟨hmem | rfl, hother⟩
        · exact .inl ⟨hmem, hother⟩
        · exact .inr rfl
    · have hfirst := h.carryOutAll?
      unfold Delta.carryOutAll? at hfirst ⊢
      rw [List.foldlM_append, hfirst]
      simp [hleads.carryOut?_eq]

end Rows

end Delta

/-! ## Single aspects -/

/-- Adding keeps a strictly ascending list so. -/
theorem pairwise_insertAscending (text : String) {texts : List String}
    (h : texts.Pairwise (· < ·)) : (insertAscending text texts).Pairwise (· < ·) := by
  induction texts with
  | nil => exact List.pairwise_singleton _ text
  | cons first later ih =>
    obtain ⟨hfirst, hlater⟩ := List.pairwise_cons.1 h
    unfold insertAscending
    split
    · rename_i hlt
      refine h.cons fun other hother => ?_
      rcases List.mem_cons.1 hother with rfl | hmem
      · exact hlt
      · exact String.lt_trans hlt (hfirst other hmem)
    · rename_i hge
      split
      · exact h
      · rename_i hne
        refine (ih hlater).cons fun other hother => ?_
        rcases (mem_insertAscending other text later).1 hother with rfl | hmem
        · exact Std.lt_of_le_of_ne (String.not_lt.1 hge) (Ne.symm hne)
        · exact hfirst other hmem

theorem pairwise_ascending (texts : List String) : (ascending texts).Pairwise (· < ·) := by
  induction texts with
  | nil => exact List.Pairwise.nil
  | cons first later ih => exact pairwise_insertAscending first ih

theorem toFinset_ascending (texts : List String) : (ascending texts).toFinset = texts.toFinset := by
  ext text
  rw [List.mem_toFinset, List.mem_toFinset, mem_ascending]

namespace SetDelta

theorem disjoint_between (old new : List String) :
    List.Disjoint (between old new).added (between old new).removed := by
  intro text hadded hremoved
  have hold := (List.mem_filter.1 hremoved).1
  have hnew := (List.mem_filter.1 hadded).2
  simp only [List.contains_eq_mem, Bool.not_eq_true', decide_eq_false_iff_not] at hnew
  exact hnew hold

/-- What is gained and lost leads from the one set to the other. -/
theorem carryOut?_between (old new : List String) :
    (between old new).carryOut? old.toFinset = some new.toFinset := by
  have hkept (text : String) : text ∈ (between old new).removed ↔ text ∈ old ∧ text ∉ new := by
    simp [between]
  have hgained (text : String) : text ∈ (between old new).added ↔ text ∈ new ∧ text ∉ old := by
    simp [between]
  have hcarries : (∀ text ∈ (between old new).removed, text ∈ old.toFinset) ∧
      ∀ text ∈ (between old new).added, text ∉ old.toFinset := by
    refine ⟨fun text hmem => ?_, fun text hmem => ?_⟩
    · exact List.mem_toFinset.2 ((hkept text).1 hmem).1
    · rw [List.mem_toFinset]
      exact ((hgained text).1 hmem).2
  rw [carryOut?, if_pos hcarries]
  congr 1
  ext text
  simp only [Finset.mem_union, Finset.mem_sdiff, List.mem_toFinset, hkept, hgained]
  tauto

theorem carryOut?_betweenSets (old new : List String) :
    (betweenSets old new).carryOut? old.toFinset = some new.toFinset := by
  rw [← toFinset_ascending old, ← toFinset_ascending new]
  exact carryOut?_between _ _

theorem isAscending_betweenSets (old new : List String) : (betweenSets old new).IsAscending :=
  ⟨(pairwise_ascending new).filter _, (pairwise_ascending old).filter _⟩

/-- Where nothing is gained and nothing is lost, there is no difference. -/
theorem sameSet_of_between {old new : List String} (hadded : (between old new).added = [])
    (hremoved : (between old new).removed = []) : SameSet old new := by
  intro text
  have hold := List.filter_eq_nil_iff.1 hremoved text
  have hnew := List.filter_eq_nil_iff.1 hadded text
  simp only [List.contains_eq_mem, Bool.not_eq_true', decide_eq_false_iff_not,
    Classical.not_not] at hold hnew
  exact ⟨hold, hnew⟩

end SetDelta

namespace Delta

/-- An aspect that is compared as it is.  `place` says where among the aspects
its value stands. -/
theorem step_ofValues {α : Type} [DecidableEq α] (build : Replaced α → Delta) {aspect : DeltaKind}
    (place : α → Aspects)
    (h : ∀ replaced, replaced.old ≠ replaced.new →
      (build replaced).Leads aspect (place replaced.old) (place replaced.new))
    (old new : α) :
    Step aspect (old ≠ new) (ofValues build old new) (place old) (place new) := by
  unfold ofValues
  split
  · rename_i hsame
    subst hsame
    exact .same (fun hne => hne rfl) (place old)
  · rename_i hne
    exact .delta hne (h ⟨old, new⟩ hne)

/-- An aspect that is compared as a set. -/
theorem step_ofSets (build : SetDelta → Delta) {aspect : DeltaKind}
    (place : Finset String → Aspects)
    (h : ∀ delta texts texts', delta.IsEffective → delta.IsAscending →
      delta.carryOut? texts = some texts' → (build delta).Leads aspect (place texts) (place texts'))
    (old new : List String) :
    Step aspect (¬ SameSet old new) (ofSets build old new) (place old.toFinset)
      (place new.toFinset) := by
  have hempty := SetDelta.isEmpty_betweenSets old new
  unfold ofSets
  simp only
  split
  · rename_i hnone
    have hsame := hempty.1 hnone
    have hset : old.toFinset = new.toFinset := by
      ext text
      rw [List.mem_toFinset, List.mem_toFinset]
      exact hsame text
    rw [hset]
    exact .same (fun hdiffers => hdiffers hsame) (place new.toFinset)
  · rename_i hsome
    have heffective : (SetDelta.betweenSets old new).IsEffective := by
      refine ⟨SetDelta.disjoint_between _ _, ?_⟩
      rintro ⟨hadded, hremoved⟩
      refine hsome ?_
      rw [SetDelta.isEmpty, hadded, hremoved]
      rfl
    exact .delta (fun hsame => hsome (hempty.2 hsame)) (h _ _ _ heffective
      (SetDelta.isAscending_betweenSets old new) (SetDelta.carryOut?_betweenSets old new))

/-- Flags are compared as bits and listed by name. -/
theorem step_ofFlags {scope : FlagScope} (hscope : scope ≠ .ofInnerClass) (aspects : Aspects)
    (old new : Flags scope) :
    Step .flags (old.bits ≠ new.bits) (ofFlags old new)
      { aspects with flagNames := old.names.toFinset }
      { aspects with flagNames := new.names.toFinset } := by
  unfold ofFlags
  split
  · rename_i hsame
    subst hsame
    exact .same (fun hne => hne rfl) _
  · rename_i hne
    have hbits : old.bits ≠ new.bits := by
      intro hbits
      obtain ⟨bits, _⟩ := old
      obtain ⟨bits', _⟩ := new
      cases hbits
      exact hne rfl
    refine .delta hbits ⟨rfl, ⟨SetDelta.disjoint_between _ _, ?_⟩, trivial, ?_⟩
    · rintro ⟨hadded, hremoved⟩
      exact hne (Flags.eq_of_sameNames hscope (SetDelta.sameSet_of_between hadded hremoved))
    · simp [carryOut?, SetDelta.carryOut?_between old.names new.names]

end Delta

/-! ## Members and classes -/

/-- The old value is there to be replaced. -/
@[simp] theorem Replaced.carryOut?_old {α : Type} [DecidableEq α] (replaced : Replaced α) :
    replaced.carryOut? replaced.old = some replaced.new :=
  if_pos rfl

/-- The aspect that only members of the kind have. -/
theorem MemberKind.step_detailDeltas (kind : MemberKind) (old new : kind.Detail)
    (aspects : Aspects) :
    Delta.Step kind.detailKind (¬ kind.SameDetail old new) (kind.detailDeltas old new)
      { aspects with exceptions := kind.exceptionSet old, constantValue := kind.literal? old }
      { aspects with exceptions := kind.exceptionSet new, constantValue := kind.literal? new } := by
  cases kind with
  | field =>
    exact Delta.step_ofValues .constantValue
      (fun literal => { aspects with exceptions := ∅, constantValue := literal })
      (fun _ hne => ⟨rfl, hne, trivial, by simp [Delta.carryOut?]⟩) old new
  | method =>
    exact Delta.step_ofSets .exceptions
      (fun classes => { aspects with exceptions := classes, constantValue := none })
      (fun _ _ _ heffective hascending hcarry =>
        ⟨rfl, heffective, hascending, by simp [Delta.carryOut?, hcarry]⟩) old new

theorem Member.differs_detailKind_iff {kind : MemberKind} (old new : Member kind) :
    old.Differs new kind.detailKind ↔ ¬ kind.SameDetail old.detail new.detail := by
  cases kind <;> simp [Differs, MemberKind.detailKind]

/-- The deltas of a member lead from its old version to its new one, aspect by
aspect. -/
theorem Member.bridges_deltas {kind : MemberKind} (old new : Member kind) :
    Delta.Bridges (deltaKinds kind) (old.Differs new) (old.deltas new) old.aspects
      new.aspects := by
  have hflags := Delta.step_ofFlags kind.scope_ne_ofInnerClass old.aspects old.flags new.flags
  have hsignature := Delta.step_ofValues .signature
    (fun signature => { old.aspects with flagNames := new.aspects.flagNames, signature })
    (fun _ hne => ⟨rfl, hne, trivial, by simp [Delta.carryOut?]⟩) old.signature new.signature
  have hdetail := kind.step_detailDeltas old.detail new.detail
    { new.aspects with deprecated := old.deprecated }
  have hdeprecated := Delta.step_ofValues .deprecated
    (fun deprecated => { new.aspects with deprecated })
    (fun _ hne => ⟨rfl, hne, trivial, by simp [Delta.carryOut?]⟩) old.deprecated new.deprecated
  rw [← old.differs_detailKind_iff new] at hdetail
  exact ((((Delta.bridges_nil old.aspects).step hflags (by simp)).step hsignature (by simp)).step
    hdetail (by cases kind <;> decide)).step hdeprecated (by cases kind <;> decide)

/-- The deltas of a class lead from its old version to its new one, aspect by
aspect. -/
theorem ClassHeader.bridges_deltas (old new : ClassHeader) :
    Delta.Bridges deltaKinds (old.Differs new) (old.deltas new) old.aspects new.aspects := by
  have hflags := Delta.step_ofFlags (by decide) old.aspects old.flags new.flags
  have hsuper := Delta.step_ofValues .superClass
    (fun superClass => { old.aspects with flagNames := new.aspects.flagNames, superClass })
    (fun _ hne => ⟨rfl, hne, trivial, by simp [Delta.carryOut?]⟩) old.superClass new.superClass
  have hinterfaces := Delta.step_ofSets .interfaces
    (fun interfaces => { old.aspects with
      flagNames := new.aspects.flagNames, superClass := new.superClass, interfaces })
    (fun _ _ _ heffective hascending hcarry =>
      ⟨rfl, heffective, hascending, by simp [Delta.carryOut?, hcarry]⟩)
    old.interfaces new.interfaces
  have hsignature := Delta.step_ofValues .signature
    (fun signature => { new.aspects with
      signature, version := some old.version, outerClass := old.outerClass,
      deprecated := old.deprecated })
    (fun _ hne => ⟨rfl, hne, trivial, by simp [Delta.carryOut?]⟩) old.signature new.signature
  have hversion := Delta.step_ofValues .version
    (fun version => { new.aspects with
      version := some version, outerClass := old.outerClass, deprecated := old.deprecated })
    (fun _ hne => ⟨rfl, hne, trivial, by simp [Delta.carryOut?]⟩) old.version new.version
  have houter := Delta.step_ofValues .outerClass
    (fun outerClass => { new.aspects with outerClass, deprecated := old.deprecated })
    (fun _ hne => ⟨rfl, hne, trivial, by simp [Delta.carryOut?]⟩) old.outerClass new.outerClass
  have hdeprecated := Delta.step_ofValues .deprecated
    (fun deprecated => { new.aspects with deprecated })
    (fun _ hne => ⟨rfl, hne, trivial, by simp [Delta.carryOut?]⟩) old.deprecated new.deprecated
  have hnone : Delta.Bridges [] (old.Differs new) [] old.aspects old.aspects :=
    Delta.bridges_nil old.aspects
  exact ((((((hnone.step hflags (by decide)).step hsuper (by decide)).step hinterfaces
    (by decide)).step hsignature (by decide)).step hversion (by decide)).step houter
    (by decide)).step hdeprecated (by decide)

/-- Deltas say what differs, all of it, in order, once, and nothing that is the
same; carried out on the old side they give the new one.  This holds for fields
and methods, and for classes apart from their members. -/
theorem Delta.bridges_members_and_classes :
    (∀ {kind : MemberKind} (old new : Member kind),
      Bridges (Member.deltaKinds kind) (old.Differs new) (old.deltas new) old.aspects
        new.aspects) ∧
    ∀ old new : ClassInfo,
      Bridges ClassHeader.deltaKinds (old.header.Differs new.header)
        (old.header.deltas new.header) old.header.aspects new.header.aspects :=
  ⟨Member.bridges_deltas, fun old new => ClassHeader.bridges_deltas old.header new.header⟩

/-- A method is no longer final and has become deprecated, and the order of its
exceptions plays no part. -/
example :
    let old : MethodInfo := ⟨"Queue", "take", "()I", .ofBits 0x11, none, ["B", "A"], false, false⟩
    let new : MethodInfo := ⟨"Queue", "take", "()I", .ofBits 0x01, none, ["A", "B"], false, true⟩
    old.deltas new = [.flags ⟨[], ["final"]⟩, .deprecated ⟨false, true⟩] := by
  decide

end ClassDelta
