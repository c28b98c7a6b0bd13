import ClassDelta.Proofs.Assembly.Declared
import ClassDelta.Proofs.Described.Members

/-!
# Assembled classes describe what was declared

Where every index of a class is an answer to the request for what was declared
in its place, resolving the class gives back the declaration.  The lemmas go
from the entries of the pool over attributes and members to the whole class.

The main statement is `ClassDeclaration.parse_assembled`.  Whatever else was
interned before, in between or afterwards, and whichever indices this led to,
the bytes of the assembled class describe the declared class.
-/

namespace ClassDelta

/-! ## Following answers -/

namespace Pool

/-- The requests for which the pool has an answer. -/
def answers (pool : Pool) : Answers := fun request index => request.Fits ∧ request.Means pool index

variable {pool : Pool} {index : PoolIndex}

theorem text_of_answers {value : String} (h : pool.answers (.text value) index) :
    pool.text index = .ok value :=
  text_of_get? h.2

theorem className_of_answers {name : String} (h : pool.answers (.className name) index) :
    pool.className index = .ok name := by
  obtain ⟨-, text, hindex, htext⟩ := h
  simp only [className, hindex, text_of_get? htext]

theorem literal_of_answers {literal : DeclaredLiteral} (h : pool.answers literal.request index) :
    some <$> pool.literal index = .ok literal.rendered? := by
  cases literal with
  | integer value =>
    have hindex : pool.get? index = some (.integer value) := h.2
    simp only [Pool.literal, hindex]
    rfl
  | long value =>
    have hindex : pool.get? index = some (.long value) := h.2
    simp only [Pool.literal, hindex]
    rfl
  | string value =>
    obtain ⟨-, text, hindex, htext⟩ := h
    simp only [Pool.literal, hindex, text_of_get? htext]
    rfl
  | constant value => exact h.1.elim

theorem className?_of_answers {name : Option String}
    (h : PoolRequest.AnsweredIfAny pool.answers .className name index) :
    pool.className? index = .ok name := by
  cases name with
  | none =>
    obtain rfl : index = 0 := h
    rfl
  | some name =>
    have hne : index ≠ 0 := by
      rintro rfl
      obtain ⟨-, text, hindex, -⟩ := h
      simp [get?] at hindex
    show (if index = 0 then _ else _) = _
    rw [if_neg hne, className_of_answers h]
    rfl

end Pool

/-! ## Recognising attributes -/

section Recognising

variable {pool : Pool}

/-- The bytes of the attribute decode to its value. -/
theorem AttributeFormat.Holds.recognises {α β : Type} {format : AttributeFormat α} {value : α}
    {encoded : RawAttribute} {fits : α → Prop} {holds : β → α → Prop} {expected : β}
    (h : format.Holds pool.answers value encoded) (hcodec : format.codec.RoundTrips fits)
    (hfits : fits value) (hholds : holds expected value) :
    format.Recognises pool holds (some expected) encoded := by
  refine ⟨Pool.text_of_answers h.name, value, ?_, hholds⟩
  rw [h.info]
  exact format.decode_write hcodec hfits

namespace DeclaredAttribute

variable {declared : DeclaredAttribute} {encoded : RawAttribute}

theorem Assembled.text_name (h : declared.Assembled pool.answers encoded) :
    pool.text encoded.name = .ok declared.name := by
  cases declared with
  | synthetic => exact Pool.text_of_answers h.name
  | deprecated => exact Pool.text_of_answers h.name
  | signature text =>
    obtain ⟨index, -, hholds⟩ := h
    exact Pool.text_of_answers hholds.name
  | constantValue literal =>
    obtain ⟨index, -, hholds⟩ := h
    exact Pool.text_of_answers hholds.name
  | exceptions classes =>
    obtain ⟨indices, -, hholds⟩ := h
    exact Pool.text_of_answers hholds.name
  | innerClasses entries =>
    obtain ⟨encodedEntries, -, hholds⟩ := h
    exact Pool.text_of_answers hholds.name
  | enclosingMethod className method =>
    obtain ⟨place, -, -, hholds⟩ := h
    exact Pool.text_of_answers hholds.name
  | raw name info => exact Pool.text_of_answers h.1

theorem Assembled.skipped {α β : Type} {format : AttributeFormat α} {holds : β → α → Prop}
    (h : declared.Assembled pool.answers encoded) (hname : declared.name ≠ format.name) :
    format.Recognises pool holds none encoded :=
  ⟨declared.name, h.text_name, hname⟩

theorem Fits.name_ne {name : String} {info : Bytes} (h : (raw name info).Fits) {other : String}
    (hother : other ∈ formatNames) : name ≠ other := by
  rintro rfl
  exact h.1 hother

variable (hfits : declared.Fits) (h : declared.Assembled pool.answers encoded)

include hfits h

theorem recognises_signature :
    AttributeFormat.signature.Recognises pool (fun text index => pool.answers (.text text) index)
      declared.signature? encoded := by
  cases declared with
  | signature text =>
    obtain ⟨index, hindex, hholds⟩ := h
    exact hholds.recognises Codec.roundTrips_uint16 trivial hindex
  | raw name info => exact h.skipped (hfits.name_ne (by decide))
  | _ => exact h.skipped (of_decide_eq_true rfl)

theorem recognises_constantValue :
    AttributeFormat.constantValue.Recognises pool
      (fun literal index => pool.answers literal.request index) declared.literal? encoded := by
  cases declared with
  | constantValue literal =>
    obtain ⟨index, hindex, hholds⟩ := h
    exact hholds.recognises Codec.roundTrips_uint16 trivial hindex
  | raw name info => exact h.skipped (hfits.name_ne (by decide))
  | _ => exact h.skipped (of_decide_eq_true rfl)

theorem recognises_exceptions :
    AttributeFormat.exceptions.Recognises pool
      (List.Forall₂ fun name index => pool.answers (.className name) index)
      declared.exceptions? encoded := by
  cases declared with
  | exceptions classes =>
    obtain ⟨indices, hindices, hholds⟩ := h
    have hlength : indices.length ≤ 65535 := hindices.length_eq ▸ hfits
    exact hholds.recognises Codec.roundTrips_uint16.counted ⟨hlength, fun _ _ => trivial⟩ hindices
  | raw name info => exact h.skipped (hfits.name_ne (by decide))
  | _ => exact h.skipped (of_decide_eq_true rfl)

theorem recognises_innerClasses :
    AttributeFormat.innerClasses.Recognises pool
      (List.Forall₂ (DeclaredInnerClass.Assembled pool.answers)) declared.innerClasses?
      encoded := by
  cases declared with
  | innerClasses entries =>
    obtain ⟨encodedEntries, hentries, hholds⟩ := h
    have hlength : encodedEntries.length ≤ 65535 := hentries.length_eq ▸ hfits
    exact hholds.recognises InnerClass.roundTrips_codec.counted ⟨hlength, fun _ _ => trivial⟩
      hentries
  | raw name info => exact h.skipped (hfits.name_ne (by decide))
  | _ => exact h.skipped (of_decide_eq_true rfl)

theorem recognises_enclosingMethod :
    AttributeFormat.enclosingMethod.Recognises pool
      (fun name place => pool.answers (.className name) place.className) declared.enclosingClass?
      encoded := by
  cases declared with
  | enclosingMethod className method =>
    obtain ⟨place, hclass, -, hholds⟩ := h
    exact hholds.recognises EnclosingMethod.roundTrips_codec trivial hclass
  | raw name info => exact h.skipped (hfits.name_ne (by decide))
  | _ => exact h.skipped (of_decide_eq_true rfl)

theorem recognises_synthetic :
    AttributeFormat.synthetic.Recognises pool (fun _ _ => True) declared.synthetic? encoded := by
  cases declared with
  | synthetic => exact h.recognises Codec.roundTrips_unit trivial trivial
  | raw name info => exact h.skipped (hfits.name_ne (by decide))
  | _ => exact h.skipped (of_decide_eq_true rfl)

theorem recognises_deprecated :
    AttributeFormat.deprecated.Recognises pool (fun _ _ => True) declared.deprecated? encoded := by
  cases declared with
  | deprecated => exact h.recognises Codec.roundTrips_unit trivial trivial
  | raw name info => exact h.skipped (hfits.name_ne (by decide))
  | _ => exact h.skipped (of_decide_eq_true rfl)

end DeclaredAttribute

end Recognising

/-! ## Resolving attributes -/

/-- What is resolved element by element. -/
theorem mapM_eq_ok {α β : Type} {resolve : α → Except ParseError β} {expected : List β}
    {values : List α} (h : List.Forall₂ (fun result value => resolve value = .ok result) expected
      values) : values.mapM resolve = .ok expected := by
  induction h with
  | nil => rfl
  | cons hfirst _ ih =>
    rw [List.mapM_cons, hfirst, ih]
    rfl

section Resolving

variable {pool : Pool} {declared : List DeclaredAttribute} {encoded : List RawAttribute}
  (h : List.Forall₂ (fun expected raw => expected.Fits ∧ expected.Assembled pool.answers raw)
    declared encoded)

include h

theorem find_assembled {α β : Type} (format : AttributeFormat α)
    {select : DeclaredAttribute → Option β} {holds : β → α → Prop}
    (hrecognises : ∀ {expected : DeclaredAttribute} {raw : RawAttribute}, expected.Fits →
      expected.Assembled pool.answers raw → format.Recognises pool holds (select expected) raw) :
    ∃ found, format.find pool encoded = .ok found ∧
      Option.Rel holds (declared.findSome? select) found :=
  format.find_eq (h.imp fun _ _ hone => hrecognises hone.1 hone.2)

theorem resolveSignature_eq :
    resolveSignature pool encoded = .ok (declared.findSome? DeclaredAttribute.signature?) := by
  obtain ⟨found, hfind, hrel⟩ := find_assembled h .signature
    DeclaredAttribute.recognises_signature
  rw [resolveSignature, hfind]
  generalize declared.findSome? DeclaredAttribute.signature? = expected at hrel ⊢
  cases hrel with
  | none => rfl
  | some hindex =>
    show some <$> pool.text _ = _
    rw [Pool.text_of_answers hindex]
    rfl

theorem resolveConstant_eq :
    resolveConstant pool encoded =
      .ok ((declared.findSome? DeclaredAttribute.literal?).bind DeclaredLiteral.rendered?) := by
  obtain ⟨found, hfind, hrel⟩ := find_assembled h .constantValue
    DeclaredAttribute.recognises_constantValue
  rw [resolveConstant, hfind]
  generalize declared.findSome? DeclaredAttribute.literal? = expected at hrel ⊢
  cases hrel with
  | none => rfl
  | some hindex => exact Pool.literal_of_answers hindex

theorem resolveExceptions_eq :
    resolveExceptions pool encoded =
      .ok ((declared.findSome? DeclaredAttribute.exceptions?).getD []) := by
  obtain ⟨found, hfind, hrel⟩ := find_assembled h .exceptions
    DeclaredAttribute.recognises_exceptions
  rw [resolveExceptions, hfind]
  generalize declared.findSome? DeclaredAttribute.exceptions? = expected at hrel ⊢
  cases hrel with
  | none => rfl
  | some hindices =>
    exact mapM_eq_ok (hindices.imp fun _ _ => Pool.className_of_answers)

theorem resolveDetail_eq (kind : MemberKind) :
    kind.resolveDetail pool encoded = .ok (kind.declaredDetail declared) := by
  cases kind with
  | field => exact resolveConstant_eq h
  | method => exact resolveExceptions_eq h

/-- A marker is found where it is declared. -/
theorem isPresent_eq (format : AttributeFormat Unit) {marker : DeclaredAttribute}
    {select : DeclaredAttribute → Option Unit} {holds : Unit → Unit → Prop}
    (hrecognises : ∀ {expected : DeclaredAttribute} {raw : RawAttribute}, expected.Fits →
      expected.Assembled pool.answers raw → format.Recognises pool holds (select expected) raw)
    (hselect : ∀ expected, (select expected).isSome = true ↔ expected = marker) :
    format.isPresent pool encoded = .ok (declared.contains marker) := by
  obtain ⟨found, hfind, hrel⟩ := find_assembled h format hrecognises
  have hpresent : (declared.findSome? select).isSome = declared.contains marker := by
    rw [Bool.eq_iff_iff, List.findSome?_isSome_iff, List.contains_iff_mem]
    simp [hselect]
  rw [AttributeFormat.isPresent, hfind, ← hpresent]
  generalize declared.findSome? select = expected at hrel ⊢
  cases hrel <;> rfl

theorem isPresent_synthetic :
    AttributeFormat.synthetic.isPresent pool encoded = .ok (declared.contains .synthetic) :=
  isPresent_eq h .synthetic DeclaredAttribute.recognises_synthetic fun expected => by
    cases expected <;> simp [DeclaredAttribute.synthetic?]

theorem isPresent_deprecated :
    AttributeFormat.deprecated.isPresent pool encoded = .ok (declared.contains .deprecated) :=
  isPresent_eq h .deprecated DeclaredAttribute.recognises_deprecated fun expected => by
    cases expected <;> simp [DeclaredAttribute.deprecated?]

end Resolving

/-! ## Resolving the outer class -/

section Outer

variable {pool : Pool}

/-- The entry that is found is the one of the declared entry for the class. -/
theorem findInnerClass_eq {declared : List DeclaredInnerClass} {entries : List InnerClass}
    (h : List.Forall₂ (DeclaredInnerClass.Assembled pool.answers) declared entries)
    (name : String) :
    ∃ found, findInnerClass pool name entries = .ok found ∧
      Option.Rel (DeclaredInnerClass.Assembled pool.answers)
        (declared.find? fun entry => entry.inner = name) found := by
  induction h with
  | nil => exact ⟨none, rfl, .none⟩
  | @cons expected entry declared entries hfirst hlater ih =>
    rw [findInnerClass, Pool.className_of_answers hfirst.inner]
    show ∃ found, (if expected.inner = name then _ else _) = _ ∧ _
    by_cases hname : expected.inner = name
    · rw [if_pos hname]
      simp only [List.find?_cons, hname, decide_true]
      exact ⟨some entry, rfl, .some hfirst⟩
    · rw [if_neg hname]
      simp only [List.find?_cons, hname, decide_false]
      exact ih

variable {declared : List DeclaredAttribute} {encoded : List RawAttribute}
  (h : List.Forall₂ (fun expected raw => expected.Fits ∧ expected.Assembled pool.answers raw)
    declared encoded)

include h

theorem resolveDeclaringClass_eq (name : String) :
    resolveDeclaringClass pool name encoded =
      .ok (((declared.findSome? DeclaredAttribute.innerClasses?).bind fun entries =>
        entries.find? fun entry => entry.inner = name).bind DeclaredInnerClass.outer) := by
  obtain ⟨found, hfind, hrel⟩ := find_assembled h .innerClasses
    DeclaredAttribute.recognises_innerClasses
  rw [resolveDeclaringClass, hfind]
  generalize declared.findSome? DeclaredAttribute.innerClasses? = expected at hrel ⊢
  cases hrel with
  | none => rfl
  | @some expected entries hentries =>
    obtain ⟨own, hown, hownRel⟩ := findInnerClass_eq hentries name
    show (findInnerClass pool name entries >>= _) = _
    rw [hown, Option.bind_some]
    generalize (expected.find? fun entry => entry.inner = name) = expectedOwn at hownRel ⊢
    cases hownRel with
    | none => rfl
    | some hentry => exact Pool.className?_of_answers hentry.outer

theorem resolveEnclosingClass_eq :
    resolveEnclosingClass pool encoded =
      .ok (declared.findSome? DeclaredAttribute.enclosingClass?) := by
  obtain ⟨found, hfind, hrel⟩ := find_assembled h .enclosingMethod
    DeclaredAttribute.recognises_enclosingMethod
  rw [resolveEnclosingClass, hfind]
  generalize declared.findSome? DeclaredAttribute.enclosingClass? = expected at hrel ⊢
  cases hrel with
  | none => rfl
  | some hclass =>
    show some <$> pool.className _ = _
    rw [Pool.className_of_answers hclass]
    rfl

end Outer

theorem ClassDeclaration.resolveOuterClass_eq {pool : Pool} {declared : ClassDeclaration}
    {encoded : List RawAttribute}
    (h : List.Forall₂ (fun expected raw => expected.Fits ∧ expected.Assembled pool.answers raw)
      declared.attributes encoded) :
    resolveOuterClass pool declared.name encoded = .ok declared.outerClass? := by
  rw [resolveOuterClass, resolveDeclaringClass_eq h, outerClass?]
  generalize ((declared.attributes.findSome? DeclaredAttribute.innerClasses?).bind fun entries =>
    entries.find? fun entry => entry.inner = declared.name).bind DeclaredInnerClass.outer = outer
  cases outer with
  | none => exact resolveEnclosingClass_eq h
  | some outer => rfl

/-! ## Resolving members -/

namespace MemberDeclaration

variable {pool : Pool} {kind : MemberKind}

theorem ofRaw_eq {declared : MemberDeclaration kind.scope} {member : RawMember kind.scope}
    (owner : String) (hfits : declared.Fits) (h : declared.Assembled pool.answers member) :
    Member.ofRaw owner pool member = .ok (declared.described owner) := by
  have hattributes := (List.forall₂_and_left _ _).2 ⟨hfits.2, h.attributes⟩
  rw [Member.ofRaw, resolveDetail_eq hattributes, resolveSignature_eq hattributes,
    Pool.text_of_answers h.name, Pool.text_of_answers h.descriptor,
    isPresent_synthetic hattributes, isPresent_deprecated hattributes, h.flags]
  rfl

end MemberDeclaration

theorem MemberDeclaration.resolveAll_eq {pool : Pool} {kind : MemberKind}
    {declared : List (MemberDeclaration kind.scope)} {members : List (RawMember kind.scope)}
    (owner : String) (hfits : ∀ member ∈ declared, member.Fits)
    (hdistinct : (declared.map key).Nodup)
    (h : List.Forall₂ (MemberDeclaration.Assembled pool.answers) declared members) :
    Member.resolveAll kind owner pool members = .ok (declared.map (described owner)) := by
  have hmembers : members.mapM (Member.ofRaw owner pool) =
      .ok (declared.map (described owner)) := by
    refine mapM_eq_ok (List.forall₂_map_left_iff.2 ?_)
    refine ((List.forall₂_and_left _ _).2 ⟨hfits, h⟩).imp fun _ _ hone => ?_
    exact ofRaw_eq owner hone.1 hone.2
  have hkeys : (declared.map (described owner)).map Member.key = declared.map key := by
    rw [List.map_map]
    rfl
  have hcheck : Member.checkDistinct (declared.map (described owner)) = .ok () := by
    rw [Member.checkDistinct_eq_ok_iff, hkeys]
    exact hdistinct
  rw [Member.resolveAll, hmembers]
  show (Member.checkDistinct (declared.map (described owner)) >>= _) = _
  rw [hcheck]
  rfl

/-! ## Whole classes -/

namespace ClassDeclaration

variable {supported : VersionRange} {declared : ClassDeclaration} {pool : Pool} {body : ClassBody}

/-- Where every index is an answer, the class is resolved to what is declared. -/
theorem ofClassFile_eq (hfits : declared.Fits supported)
    (h : declared.Assembled pool.answers body) :
    ClassInfo.ofClassFile { body with version := declared.version, pool } =
      .ok declared.described := by
  have hattributes := (List.forall₂_and_left _ _).2 ⟨hfits.attributes.2, h.attributes⟩
  have hinterfaces : body.interfaces.mapM pool.className = .ok declared.interfaces :=
    mapM_eq_ok (h.interfaces.imp fun _ _ => Pool.className_of_answers)
  have hfields : Member.resolveAll .field declared.name pool body.fields = _ :=
    MemberDeclaration.resolveAll_eq declared.name hfits.fields.2 hfits.distinctFields h.fields
  have hmethods : Member.resolveAll .method declared.name pool body.methods = _ :=
    MemberDeclaration.resolveAll_eq declared.name hfits.methods.2 hfits.distinctMethods h.methods
  simp only [ClassInfo.ofClassFile, Bind.bind, Except.bind, Pool.className_of_answers h.thisClass,
    Pool.className?_of_answers h.superClass, hinterfaces, hfields, hmethods,
    resolveOuterClass_eq hattributes, resolveSignature_eq hattributes,
    isPresent_synthetic hattributes, isPresent_deprecated hattributes, h.flags]
  rfl

theorem parse_of_assembled {history : List PoolRequest}
    (hfits : declared.Fits supported) (hhistory : ∀ request ∈ history, request.Fits)
    (h : declared.Assembled (PoolRequest.Answered history) body) :
    ClassInfo.parse supported
      (ClassFile.write
        { body with version := declared.version, pool := (PoolBuilder.after history).pool }) =
      .ok declared.described := by
  have hanswers : ∀ request index, PoolRequest.Answered history request index →
      (PoolBuilder.after history).pool.answers request index := by
    intro request index hanswered
    obtain ⟨earlier, later, builder, rfl, hresult⟩ := id hanswered
    exact ⟨hhistory request (by simp), hanswered.means⟩
  have hfile : ClassFile.Fits supported
      { body with version := declared.version, pool := (PoolBuilder.after history).pool } :=
    ⟨hfits.version, Pool.fits_after hhistory, h.fits hfits⟩
  rw [ClassInfo.parse, ClassFile.parse_write_of_fits hfile]
  exact ofClassFile_eq hfits (h.mono hanswers)

/-- The bytes of an assembled class describe what was declared.  Its indices may
be the answers to calls among any others, in any order; in particular, it may be
built on top of whatever was interned before. -/
theorem parse_assembled (hfits : declared.Fits supported) (history : List PoolRequest)
    (hhistory : ∀ request ∈ history, request.Fits) :
    (∀ body, declared.Assembled (PoolRequest.Answered history) body →
      ClassInfo.parse supported
        (ClassFile.write
          { body with version := declared.version, pool := (PoolBuilder.after history).pool }) =
        .ok declared.described) ∧
    ∀ body builder, declared.build (PoolBuilder.after history) = .ok body builder →
      ClassInfo.parse supported
        (ClassFile.write { body with version := declared.version, pool := builder.pool }) =
        .ok declared.described := by
  refine ⟨fun body h => parse_of_assembled hfits hhistory h, fun body builder hbuild => ?_⟩
  obtain ⟨rfl, hassembled⟩ := declared.performs_build history body builder hbuild
  refine parse_of_assembled hfits ?_ (by simpa using hassembled [])
  intro request hmem
  rcases List.mem_append.1 hmem with hearlier | hown
  · exact hhistory request hearlier
  · exact hfits.requests request hown

/-- A nested class with attributes of every kind. -/
def nestedSample : ClassDeclaration where
  name := "Map$Entry"
  superClass := some "java/lang/Object"
  interfaces := ["java/io/Serializable"]
  flags := .ofBits 0x0601
  version := ⟨52, 0⟩
  fields :=
    [⟨.ofBits 0x0019, "serial", "J", [.constantValue (.long (-7)), .deprecated]⟩,
      ⟨.ofBits 0x0019, "label", "Ljava/lang/String;",
        [.raw "Origin" [1, 2], .signature "TK;", .constantValue (.string "é\n")]⟩]
  methods :=
    [⟨.ofBits 0x0401, "get", "()Ljava/lang/Object;",
        [.exceptions ["java/io/IOException", "java/lang/Error"], .signature "()TK;", .synthetic]⟩]
  attributes :=
    [.innerClasses
        [⟨"Map$Other", some "Other", some "Other", .ofBits 0x0008⟩,
          ⟨"Map$Entry", some "Map", some "Entry", .ofBits 0x0008⟩],
      .enclosingMethod "Outside" (some ("run", "()V")), .signature "<K:Ljava/lang/Object;>"]

/-- Calls that shift the indices and add entries that the class needs as well. -/
def nestedHistory : List PoolRequest :=
  [.long 1, .className "Map", .nameAndType "run" "()V", .string "Deprecated", .integer 0]

theorem fits_nestedSample : nestedSample.Fits .everyRelease :=
  ⟨by decide, by decide, by decide, by decide, by decide, by decide, by decide, by decide⟩

theorem parse_assembled_nested :
    nestedSample.Fits .everyRelease ∧ (∀ request ∈ nestedHistory, request.Fits) ∧
      match nestedSample.build (PoolBuilder.after nestedHistory) with
      | .ok body builder =>
        ClassInfo.parse .everyRelease
          (ClassFile.write { body with version := nestedSample.version, pool := builder.pool }) =
          .ok nestedSample.described
      | .error _ _ => False := by
  have hhistory : ∀ request ∈ nestedHistory, request.Fits := by decide
  have hbuilt := (parse_assembled fits_nestedSample nestedHistory hhistory).2
  refine ⟨fits_nestedSample, hhistory, ?_⟩
  cases hresult : nestedSample.build (PoolBuilder.after nestedHistory) with
  | ok body builder => exact hbuilt body builder hresult
  | error overflow builder =>
    have hroom : (match nestedSample.build (PoolBuilder.after nestedHistory) with
      | .ok _ _ => true
      | .error _ _ => false) = true := by decide +kernel
    rw [hresult] at hroom
    cases hroom

end ClassDeclaration

end ClassDelta
