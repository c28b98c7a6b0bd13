import ClassDelta.Described.ClassInfo
import ClassDelta.Proofs.Attributes.Decoding
import ClassDelta.Proofs.Pool.References

/-!
# How a class that was read can fail to be described

Describing a class follows references, decodes attributes and tells members apart.
`FailsOnly` says what the failures of a result are, with one lemma for each way of
going on after a result.

References and attributes fail in two ways (`ParseError.OfReference`), and members
add a third one (`ParseError.OfContents`).  None of these is about the bytes of the
class file, which have all been read before:
`AttributeFormat.isExact_and_failures`.
-/

namespace ClassDelta

/-! ## Failing in certain ways only -/

/-- If the result is a failure, then of this kind. -/
def FailsOnly {α : Type} (such : ParseError → Prop) (result : Except ParseError α) : Prop :=
  ∀ error, result = .error error → such error

namespace FailsOnly

variable {α β : Type} {such : ParseError → Prop}

theorem of_ok (value : α) : FailsOnly such (.ok value) := by
  intro error h
  cases h

theorem mono {weaker : ParseError → Prop} {result : Except ParseError α}
    (h : FailsOnly such result) (himp : ∀ error, such error → weaker error) :
    FailsOnly weaker result :=
  fun error herror => himp error (h error herror)

theorem bind {first : Except ParseError α} {next : α → Except ParseError β}
    (h : FailsOnly such first) (hnext : ∀ value, FailsOnly such (next value)) :
    FailsOnly such (first >>= next) := by
  intro error herror
  cases hfirst : first with
  | error found =>
    rw [hfirst] at herror
    cases herror
    exact h error hfirst
  | ok value =>
    rw [hfirst] at herror
    exact hnext value error herror

/-- Go on with a value that need not be there. -/
theorem bindOption {first : Except ParseError (Option α)}
    {next : Option α → Except ParseError β} (h : FailsOnly such first)
    (hnone : FailsOnly such (next none)) (hsome : ∀ value, FailsOnly such (next (some value))) :
    FailsOnly such (first >>= next) := by
  refine h.bind fun found => ?_
  cases found with
  | none => exact hnone
  | some value => exact hsome value

theorem map {result : Except ParseError α} (f : α → β) (h : FailsOnly such result) :
    FailsOnly such (f <$> result) := by
  rw [map_eq_pure_bind]
  exact h.bind fun value => of_ok (f value)

theorem mapM {step : α → Except ParseError β} (h : ∀ value, FailsOnly such (step value))
    (values : List α) : FailsOnly such (values.mapM step) := by
  induction values with
  | nil => exact of_ok []
  | cons value later ih =>
    rw [List.mapM_cons]
    exact (h value).bind fun first => ih.bind fun rest => of_ok (first :: rest)

end FailsOnly

/-! ## References and attributes -/

/-- A reference leads to nothing that is wanted there, or an attribute has the wrong
length. -/
inductive ParseError.OfReference : ParseError → Prop
  | unresolved (index : PoolIndex) (wanted : Wanted) (found : Option ConstantKind) :
    OfReference (.unresolved index wanted found)
  | badLength (name : String) (length : Nat) :
    OfReference (.malformedClass (.badAttributeLength name length))

open ParseError (OfReference)

namespace Pool

theorem LookupResult.failsOnly {α : Type} {pool : Pool} {index : PoolIndex} {wanted : Wanted}
    {result : Resolved α} (h : LookupResult pool index wanted result) :
    FailsOnly OfReference result := by
  intro error herror
  cases h with
  | value hfound value => cases herror
  | here =>
    cases herror
    exact .unresolved ..
  | there hfound hstores =>
    cases herror
    exact .unresolved ..

theorem failsOnly_text (pool : Pool) (index : PoolIndex) :
    FailsOnly OfReference (pool.text index) :=
  (lookupResult_text pool index).failsOnly

theorem failsOnly_className (pool : Pool) (index : PoolIndex) :
    FailsOnly OfReference (pool.className index) :=
  (lookupResult_className pool index).failsOnly

theorem failsOnly_className? (pool : Pool) (index : PoolIndex) :
    FailsOnly OfReference (pool.className? index) := by
  unfold className? optional
  split
  · exact .of_ok none
  · exact (failsOnly_className pool index).map some

end Pool

namespace AttributeFormat

variable {α : Type} {format : AttributeFormat α} {name : String} {size : Bytes → Nat}
  {fits : α → Prop} {settle : Bytes → Bytes}

theorem IsExact.failsOnly_decode (h : format.IsExact name size fits settle) (info : Bytes) :
    FailsOnly OfReference (format.decode info) := by
  by_cases hsize : info.length = size info
  · obtain ⟨value, hdecode⟩ := h.decodes info hsize
    rw [hdecode]
    exact .of_ok value
  · rw [h.rejects info hsize]
    intro error herror
    cases herror
    exact .badLength name info.length

theorem IsExact.failsOnly_find (h : format.IsExact name size fits settle) (pool : Pool)
    (attributes : List RawAttribute) : FailsOnly OfReference (format.find pool attributes) := by
  induction attributes with
  | nil => exact .of_ok none
  | cons candidate later ih =>
    rw [find]
    refine (pool.failsOnly_text candidate.name).bind fun found => ?_
    split
    · exact (h.failsOnly_decode candidate.info).map some
    · exact ih

theorem IsExact.failsOnly_isPresent (h : format.IsExact name size fits settle) (pool : Pool)
    (attributes : List RawAttribute) : FailsOnly OfReference (format.isPresent pool attributes) :=
  (h.failsOnly_find pool attributes).map _

end AttributeFormat

/-! ## Members and classes -/

section Resolving

open AttributeFormat

variable (pool : Pool) (attributes : List RawAttribute)

theorem failsOnly_resolveSignature : FailsOnly OfReference (resolveSignature pool attributes) := by
  refine ((isExact_index "Signature").failsOnly_find pool attributes).bindOption (.of_ok none)
    fun index => ?_
  exact (pool.failsOnly_text index).map some

theorem MemberKind.failsOnly_resolveDetail (kind : MemberKind) :
    FailsOnly OfReference (kind.resolveDetail pool attributes) := by
  cases kind with
  | field =>
    refine ((isExact_index "ConstantValue").failsOnly_find pool attributes).bindOption (.of_ok none)
      fun index => ?_
    exact (Pool.lookupResult_literal pool index).failsOnly.map some
  | method =>
    refine (isExact_exceptions.failsOnly_find pool attributes).bindOption (.of_ok [])
      fun classes => ?_
    exact .mapM pool.failsOnly_className classes

/-- A member fails to be resolved for its own references and attributes only, and
not for what other members are. -/
theorem Member.failsOnly_ofRaw {kind : MemberKind} (owner : String) (raw : RawMember kind.scope) :
    FailsOnly OfReference (ofRaw owner pool raw) := by
  refine (kind.failsOnly_resolveDetail pool raw.attributes).bind fun detail => ?_
  refine (failsOnly_resolveSignature pool raw.attributes).bind fun signature => ?_
  refine (pool.failsOnly_text raw.name).bind fun name => ?_
  refine (pool.failsOnly_text raw.descriptor).bind fun descriptor => ?_
  refine ((isExact_marker "Synthetic").failsOnly_isPresent pool _).bind fun synthetic => ?_
  refine ((isExact_marker "Deprecated").failsOnly_isPresent pool _).bind fun deprecated => ?_
  exact .of_ok _

theorem failsOnly_findInnerClass (name : String) (entries : List InnerClass) :
    FailsOnly OfReference (findInnerClass pool name entries) := by
  induction entries with
  | nil => exact .of_ok none
  | cons entry later ih =>
    rw [findInnerClass]
    refine (pool.failsOnly_className entry.inner).bind fun found => ?_
    split
    · exact .of_ok (some entry)
    · exact ih

theorem failsOnly_resolveDeclaringClass (name : String) :
    FailsOnly OfReference (resolveDeclaringClass pool name attributes) := by
  refine (isExact_innerClasses.failsOnly_find pool attributes).bindOption (.of_ok none)
    fun entries => ?_
  refine (failsOnly_findInnerClass pool name entries).bindOption (.of_ok none) fun entry => ?_
  exact pool.failsOnly_className? entry.outer

theorem failsOnly_resolveEnclosingClass :
    FailsOnly OfReference (resolveEnclosingClass pool attributes) := by
  refine (isExact_enclosingMethod.failsOnly_find pool attributes).bindOption (.of_ok none)
    fun place => ?_
  exact (pool.failsOnly_className place.className).map some

theorem failsOnly_resolveOuterClass (name : String) :
    FailsOnly OfReference (resolveOuterClass pool name attributes) :=
  (failsOnly_resolveDeclaringClass pool attributes name).bindOption
    (failsOnly_resolveEnclosingClass pool attributes) fun outer => .of_ok (some outer)

end Resolving

/-- A reference or an attribute is at fault, or two members are the same. -/
inductive ParseError.OfContents : ParseError → Prop
  | reference {error : ParseError} (h : OfReference error) : OfContents error
  | duplicate (name descriptor : String) :
    OfContents (.malformedClass (.duplicateMember name descriptor))

open ParseError (OfContents)

theorem FailsOnly.ofContents {α : Type} {result : Except ParseError α}
    (h : FailsOnly OfReference result) : FailsOnly OfContents result :=
  h.mono fun _ => .reference

theorem Member.failsOnly_resolveAll (kind : MemberKind) (owner : String) (pool : Pool)
    (members : List (RawMember kind.scope)) :
    FailsOnly OfContents (resolveAll kind owner pool members) := by
  have hresolved := FailsOnly.mapM (failsOnly_ofRaw pool owner) members
  refine hresolved.ofContents.bind fun resolved => ?_
  have hdistinct : FailsOnly OfContents (checkDistinct resolved) := by
    unfold checkDistinct
    split
    · intro error herror
      cases herror
      exact .duplicate ..
    · exact .of_ok ()
  exact hdistinct.bind fun _ => .of_ok resolved

namespace ClassInfo

/-- What is resolved behind the members. -/
theorem failsOnly_attributes (file : ClassFile) (name : String)
    (describe : Option String → Option String → Bool → Bool → ClassInfo) :
    FailsOnly OfReference (do
      let outerClass ← resolveOuterClass file.pool name file.attributes
      let signature ← resolveSignature file.pool file.attributes
      let syntheticAttribute ← AttributeFormat.synthetic.isPresent file.pool file.attributes
      let deprecated ← AttributeFormat.deprecated.isPresent file.pool file.attributes
      return describe outerClass signature syntheticAttribute deprecated) := by
  refine (failsOnly_resolveOuterClass file.pool file.attributes name).bind fun outerClass => ?_
  refine (failsOnly_resolveSignature file.pool file.attributes).bind fun signature => ?_
  refine ((AttributeFormat.isExact_marker "Synthetic").failsOnly_isPresent _ _).bind
    fun syntheticAttribute => ?_
  refine ((AttributeFormat.isExact_marker "Deprecated").failsOnly_isPresent _ _).bind
    fun deprecated => ?_
  exact .of_ok _

theorem failsOnly_ofClassFile (file : ClassFile) : FailsOnly OfContents (ofClassFile file) := by
  refine (file.pool.failsOnly_className file.thisClass).ofContents.bind fun name => ?_
  refine (file.pool.failsOnly_className? file.superClass).ofContents.bind fun superClass => ?_
  refine (FailsOnly.mapM file.pool.failsOnly_className file.interfaces).ofContents.bind
    fun interfaces => ?_
  refine (Member.failsOnly_resolveAll .field name file.pool file.fields).bind fun fields => ?_
  refine (Member.failsOnly_resolveAll .method name file.pool file.methods).bind fun methods => ?_
  exact (failsOnly_attributes file name _).ofContents

end ClassInfo

/-! ## All formats -/

/-- Each format decodes the bytes of its size and no others, and says of all others
that the attribute of its name has a length that is wrong.  So no failure of
describing a class says that an input ended too soon, that a pool is malformed or
that a version is not supported. -/
theorem AttributeFormat.isExact_and_failures :
    constantValue.IsExact "ConstantValue" (fun _ => 2) (fun _ => True) id ∧
    exceptions.IsExact "Exceptions" (fun info => 2 + 2 * BigEndian.decode (info.take 2))
      (fun classes => classes.length ≤ 65535) id ∧
    innerClasses.IsExact "InnerClasses" (fun info => 2 + 8 * BigEndian.decode (info.take 2))
      (fun entries => entries.length ≤ 65535)
      (fun info => info.take 2 ++ InnerClass.dropUndefined (info.drop 2)) ∧
    enclosingMethod.IsExact "EnclosingMethod" (fun _ => 4) (fun _ => True) id ∧
    signature.IsExact "Signature" (fun _ => 2) (fun _ => True) id ∧
    synthetic.IsExact "Synthetic" (fun _ => 0) (fun _ => True) id ∧
    deprecated.IsExact "Deprecated" (fun _ => 0) (fun _ => True) id ∧
    ∀ (file : ClassFile) (error : ParseError), ClassInfo.ofClassFile file = .error error →
      (∀ offset needed available, error ≠ .truncated offset needed available) ∧
      (∀ index defect, error ≠ .malformedPool index defect) ∧
      ∀ version supported, error ≠ .unsupportedVersion version supported := by
  refine ⟨isExact_index _, isExact_exceptions, isExact_innerClasses, isExact_enclosingMethod,
    isExact_index _, isExact_marker _, isExact_marker _, ?_⟩
  intro file error herror
  cases ClassInfo.failsOnly_ofClassFile file error herror with
  | reference hreference => cases hreference <;> simp
  | duplicate name descriptor => simp

/-- Two entries are declared where there is room for one, which is found out when the
class is described; with the right count the entry is decoded, and written without
the bit `0x0020`, which inner classes do not have. -/
theorem AttributeFormat.isExact_and_failures_shortEntries :
    let file : ClassFile :=
      { version := ⟨52, 0⟩
        pool := .ofConstants [.utf8 "A", .named .className 1, .utf8 "InnerClasses"]
        flags := .ofBits 0x0021
        thisClass := 2, superClass := 0, interfaces := [], fields := [], methods := []
        attributes := [⟨3, [0, 2, 0, 2, 0, 0, 0, 0, 0, 8]⟩] }
    let error : ParseError := .malformedClass (.badAttributeLength "InnerClasses" 10)
    let entry : InnerClass := ⟨2, 0, 1, .ofBits 0x0028⟩
    ClassInfo.ofClassFile file = .error error ∧
      (∀ offset needed available, error ≠ .truncated offset needed available) ∧
      innerClasses.decode [0, 1, 0, 2, 0, 0, 0, 1, 0, 0x28] = .ok [entry] ∧
      innerClasses.codec.write [entry] = [0, 1, 0, 2, 0, 0, 0, 1, 0, 0x08] := by
  intro file error entry
  obtain ⟨-, -, hinner, -, -, -, -, hfails⟩ := isExact_and_failures
  have hfailure : ClassInfo.ofClassFile file = .error error := by decide
  have hdecode : innerClasses.decode [0, 1, 0, 2, 0, 0, 0, 1, 0, 0x28] = .ok [entry] := rfl
  exact ⟨hfailure, (hfails file error hfailure).1, hdecode, hinner.writes _ _ hdecode⟩

end ClassDelta
