import ClassDelta.Assembly
import ClassDelta.Proofs.Pool.Building
import Mathlib.Data.List.Forall2

/-!
# What assembling comes to

A class body is *assembled* from a declaration if it says the same thing, with
an index wherever the declaration has a name or a value.  `Assembled` leaves
open what the indices are, and in which order the entries were added; it asks
that each index was the answer to the request for what stands in its place.

`ClassDeclaration.requests` lists the calls that `ClassDeclaration.build` makes,
and `ClassDeclaration.performs_build` says that it makes them in this order and
that its result is assembled from the declaration.
-/

namespace ClassDelta

/-- Which requests have which answers. -/
abbrev Answers := PoolRequest → PoolIndex → Prop

/-- The answer for what may be absent is 0 if it is. -/
def PoolRequest.AnsweredIfAny {α : Type} (answers : Answers) (request : α → PoolRequest) :
    Option α → PoolIndex → Prop
  | some value, index => answers (request value) index
  | none, index => index = 0

/-! ## The relation -/

namespace DeclaredLiteral

/-- The request for the literal. -/
def request : DeclaredLiteral → PoolRequest
  | integer value => .integer value
  | long value => .long value
  | string value => .string value
  | constant value => .push value

end DeclaredLiteral

/-- The entry has an answer in each place. -/
structure DeclaredInnerClass.Assembled (answers : Answers) (declared : DeclaredInnerClass)
    (entry : InnerClass) : Prop where
  inner : answers (.className declared.inner) entry.inner
  outer : PoolRequest.AnsweredIfAny answers .className declared.outer entry.outer
  name : PoolRequest.AnsweredIfAny answers .text declared.name entry.name
  flags : entry.flags = declared.flags

/-- The attribute has the name of the format, and the value is in its bytes. -/
structure AttributeFormat.Holds {α : Type} (format : AttributeFormat α) (answers : Answers)
    (value : α) (raw : RawAttribute) : Prop where
  name : answers (.text format.name) raw.name
  info : raw.info = format.codec.write value

/-- The attribute holds what is declared. -/
def DeclaredAttribute.Assembled (answers : Answers) : DeclaredAttribute → RawAttribute → Prop
  | synthetic, encoded => AttributeFormat.synthetic.Holds answers () encoded
  | deprecated, encoded => AttributeFormat.deprecated.Holds answers () encoded
  | signature text, encoded => ∃ index, answers (.text text) index ∧
      AttributeFormat.signature.Holds answers index encoded
  | constantValue literal, encoded => ∃ index, answers literal.request index ∧
      AttributeFormat.constantValue.Holds answers index encoded
  | exceptions classes, encoded => ∃ indices,
      List.Forall₂ (fun name index => answers (.className name) index) classes indices ∧
        AttributeFormat.exceptions.Holds answers indices encoded
  | innerClasses declared, encoded => ∃ entries,
      List.Forall₂ (DeclaredInnerClass.Assembled answers) declared entries ∧
        AttributeFormat.innerClasses.Holds answers entries encoded
  | enclosingMethod className method, encoded => ∃ place : EnclosingMethod,
      answers (.className className) place.className ∧
        PoolRequest.AnsweredIfAny answers (fun (name, descriptor) => .nameAndType name descriptor)
          method place.method ∧
        AttributeFormat.enclosingMethod.Holds answers place encoded
  | raw name info, encoded => answers (.text name) encoded.name ∧ encoded.info = info

/-- The member has an answer in each place, and its attributes hold what is
declared. -/
structure MemberDeclaration.Assembled {scope : FlagScope} (answers : Answers)
    (declared : MemberDeclaration scope) (member : RawMember scope) : Prop where
  flags : member.flags = declared.flags
  name : answers (.text declared.name) member.name
  descriptor : answers (.text declared.descriptor) member.descriptor
  attributes : List.Forall₂ (DeclaredAttribute.Assembled answers) declared.attributes
    member.attributes

/-- The body says what is declared, in the same order. -/
structure ClassDeclaration.Assembled (answers : Answers) (declared : ClassDeclaration)
    (body : ClassBody) : Prop where
  flags : body.flags = declared.flags
  thisClass : answers (.className declared.name) body.thisClass
  superClass : PoolRequest.AnsweredIfAny answers .className declared.superClass body.superClass
  interfaces : List.Forall₂ (fun name index => answers (.className name) index)
    declared.interfaces body.interfaces
  fields : List.Forall₂ (MemberDeclaration.Assembled answers) declared.fields body.fields
  methods : List.Forall₂ (MemberDeclaration.Assembled answers) declared.methods body.methods
  attributes : List.Forall₂ (DeclaredAttribute.Assembled answers) declared.attributes
    body.attributes

/-! ## More answers -/

section Mono

variable {answers answers' : Answers}
  (hanswers : ∀ request index, answers request index → answers' request index)

include hanswers

theorem PoolRequest.AnsweredIfAny.mono {α : Type} {request : α → PoolRequest} {value : Option α}
    {index : PoolIndex} (h : AnsweredIfAny answers request value index) :
    AnsweredIfAny answers' request value index := by
  cases value with
  | none => exact h
  | some value => exact hanswers _ _ h

theorem AttributeFormat.Holds.mono {α : Type} {format : AttributeFormat α} {value : α}
    {raw : RawAttribute} (h : format.Holds answers value raw) : format.Holds answers' value raw :=
  ⟨hanswers _ _ h.name, h.info⟩

theorem DeclaredInnerClass.Assembled.mono {declared : DeclaredInnerClass} {entry : InnerClass}
    (h : declared.Assembled answers entry) : declared.Assembled answers' entry :=
  ⟨hanswers _ _ h.inner, h.outer.mono hanswers, h.name.mono hanswers, h.flags⟩

theorem DeclaredAttribute.Assembled.mono {declared : DeclaredAttribute} {raw : RawAttribute}
    (h : declared.Assembled answers raw) : declared.Assembled answers' raw := by
  cases declared with
  | synthetic => exact AttributeFormat.Holds.mono hanswers h
  | deprecated => exact AttributeFormat.Holds.mono hanswers h
  | signature text =>
    obtain ⟨index, hindex, hholds⟩ := h
    exact ⟨index, hanswers _ _ hindex, hholds.mono hanswers⟩
  | constantValue literal =>
    obtain ⟨index, hindex, hholds⟩ := h
    exact ⟨index, hanswers _ _ hindex, hholds.mono hanswers⟩
  | exceptions classes =>
    obtain ⟨indices, hindices, hholds⟩ := h
    exact ⟨indices, hindices.imp fun _ _ => hanswers _ _, hholds.mono hanswers⟩
  | innerClasses declared =>
    obtain ⟨entries, hentries, hholds⟩ := h
    exact ⟨entries, hentries.imp fun _ _ hentry => hentry.mono hanswers, hholds.mono hanswers⟩
  | enclosingMethod className method =>
    obtain ⟨place, hclass, hmethod, hholds⟩ := h
    exact ⟨place, hanswers _ _ hclass, hmethod.mono hanswers, hholds.mono hanswers⟩
  | raw name info => exact ⟨hanswers _ _ h.1, h.2⟩

theorem MemberDeclaration.Assembled.mono {scope : FlagScope} {declared : MemberDeclaration scope}
    {member : RawMember scope} (h : declared.Assembled answers member) :
    declared.Assembled answers' member where
  flags := h.flags
  name := hanswers _ _ h.name
  descriptor := hanswers _ _ h.descriptor
  attributes := h.attributes.imp fun _ _ hattribute => hattribute.mono hanswers

/-- Nothing but the answers matters. -/
theorem ClassDeclaration.Assembled.mono {declared : ClassDeclaration} {body : ClassBody}
    (h : declared.Assembled answers body) : declared.Assembled answers' body where
  flags := h.flags
  thisClass := hanswers _ _ h.thisClass
  superClass := h.superClass.mono hanswers
  interfaces := h.interfaces.imp fun _ _ => hanswers _ _
  fields := h.fields.imp fun _ _ hfield => hfield.mono hanswers
  methods := h.methods.imp fun _ _ hmethod => hmethod.mono hanswers
  attributes := h.attributes.imp fun _ _ hattribute => hattribute.mono hanswers

end Mono

/-! ## The calls that are made -/

/-- The request for what is there, if anything is. -/
def PoolRequest.ifAny {α : Type} (request : α → PoolRequest) (value : Option α) :
    List PoolRequest :=
  value.toList.map request

def DeclaredInnerClass.requests (declared : DeclaredInnerClass) : List PoolRequest :=
  [.className declared.inner] ++ PoolRequest.ifAny .className declared.outer ++
    PoolRequest.ifAny .text declared.name

def DeclaredAttribute.requests : DeclaredAttribute → List PoolRequest
  | synthetic => [.text AttributeFormat.synthetic.name]
  | deprecated => [.text AttributeFormat.deprecated.name]
  | signature text => [.text text, .text AttributeFormat.signature.name]
  | constantValue literal => [literal.request, .text AttributeFormat.constantValue.name]
  | exceptions classes => classes.map .className ++ [.text AttributeFormat.exceptions.name]
  | innerClasses entries =>
    entries.flatMap DeclaredInnerClass.requests ++ [.text AttributeFormat.innerClasses.name]
  | enclosingMethod className method =>
    [.className className] ++
      PoolRequest.ifAny (fun (name, descriptor) => .nameAndType name descriptor) method ++
      [.text AttributeFormat.enclosingMethod.name]
  | raw name _ => [.text name]

def MemberDeclaration.requests {scope : FlagScope} (declared : MemberDeclaration scope) :
    List PoolRequest :=
  [.text declared.name, .text declared.descriptor] ++
    declared.attributes.flatMap DeclaredAttribute.requests

/-- All calls that building the class makes, in their order. -/
def ClassDeclaration.requests (declared : ClassDeclaration) : List PoolRequest :=
  [.className declared.name] ++ PoolRequest.ifAny .className declared.superClass ++
    declared.interfaces.map .className ++ declared.fields.flatMap MemberDeclaration.requests ++
    declared.methods.flatMap MemberDeclaration.requests ++
    declared.attributes.flatMap DeclaredAttribute.requests

namespace Building

variable {α β δ : Type}

/-- A step that succeeds has made exactly these calls, whatever was called
before, and its result goes with their answers. -/
def Performs (step : Building α) (requests : List PoolRequest) (result : Answers → α → Prop) :
    Prop :=
  ∀ history value builder, step (PoolBuilder.after history) = .ok value builder →
    builder = PoolBuilder.after (history ++ requests) ∧
      ∀ more, result (PoolRequest.Answered (history ++ requests ++ more)) value

theorem performs_pure (value : α) : Performs (pure value) [] fun _ result => result = value := by
  intro history result builder hresult
  cases hresult
  exact ⟨by simp, fun more => rfl⟩

theorem performs_request (request : PoolRequest) :
    Performs request.perform [request] fun answers index => answers request index := by
  intro history index builder hresult
  constructor
  · rw [PoolBuilder.after_append]
    simp [PoolBuilder.next, hresult]
  · exact fun more => ⟨history, more, builder, by simp, hresult⟩

theorem Performs.bind {step : Building α} {next : α → Building β} {first second : List PoolRequest}
    {between : Answers → α → Prop} {result : Answers → β → Prop}
    (h : Performs step first between)
    (h' : ∀ value, Performs (next value) second fun answers last =>
      between answers value → result answers last) :
    Performs (step >>= next) (first ++ second) result := by
  intro history last builder hboth
  obtain ⟨value, middle, hstep, hnext⟩ := Stateful.bind_eq_ok hboth
  obtain ⟨rfl, hbetween⟩ := h history value middle hstep
  obtain ⟨hbuilder, hlast⟩ := h' value _ last builder hnext
  rw [List.append_assoc] at hbuilder
  refine ⟨hbuilder, fun more => ?_⟩
  have hvalue := hbetween (second ++ more)
  have hresult := hlast more
  simp only [List.append_assoc] at hvalue hresult ⊢
  exact hresult hvalue

theorem Performs.mono {step : Building α} {requests : List PoolRequest}
    {result result' : Answers → α → Prop} (h : Performs step requests result)
    (hresult : ∀ answers value, result answers value → result' answers value) :
    Performs step requests result' := by
  intro history value builder hstep
  obtain ⟨hbuilder, hvalue⟩ := h history value builder hstep
  exact ⟨hbuilder, fun more => hresult _ _ (hvalue more)⟩

/-- What is made of the result in the end takes no calls. -/
theorem Performs.return {step : Building α} {build : α → β} {requests : List PoolRequest}
    {between : Answers → α → Prop} {result : Answers → β → Prop}
    (h : Performs step requests between)
    (hresult : ∀ answers value, between answers value → result answers (build value)) :
    Performs (step >>= fun value => pure (build value)) requests result := by
  intro history last builder hboth
  obtain ⟨value, middle, hstep, hlast⟩ := Stateful.bind_eq_ok hboth
  cases hlast
  obtain ⟨hbuilder, hvalue⟩ := h history value builder hstep
  exact ⟨hbuilder, fun more => hresult _ _ (hvalue more)⟩

theorem performs_ifAny (request : δ → PoolRequest) (build : δ → Building PoolIndex)
    (h : ∀ value, build value = (request value).perform) (value : Option δ) :
    Performs (PoolBuilder.optional build value) (PoolRequest.ifAny request value) fun answers =>
      PoolRequest.AnsweredIfAny answers request value := by
  cases value with
  | none => exact performs_pure 0
  | some value =>
    show Performs (build value) [request value] fun answers index => answers (request value) index
    rw [h]
    exact performs_request (request value)

/-- One element after the other. -/
theorem performs_mapM {build : δ → Building α} {requests : δ → List PoolRequest}
    {result : Answers → δ → α → Prop}
    (h : ∀ value, Performs (build value) (requests value) fun answers => result answers value)
    (values : List δ) :
    Performs (values.mapM build) (values.flatMap requests) fun answers =>
      List.Forall₂ (result answers) values := by
  induction values with
  | nil =>
    intro history results builder hresult
    cases hresult
    exact ⟨by simp, fun more => .nil⟩
  | cons value values ih =>
    rw [List.mapM_cons, List.flatMap_cons]
    refine (h value).bind fun first => ?_
    exact ih.return fun _ _ hlater hfirst => .cons hfirst hlater

end Building

/-! ## What building a class does -/

theorem DeclaredLiteral.build_eq (literal : DeclaredLiteral) :
    literal.build = literal.request.perform := by
  cases literal <;> rfl

theorem performs_className (names : List String) :
    Building.Performs (names.mapM PoolBuilder.className) (names.map .className) fun answers =>
      List.Forall₂ (fun name index => answers (.className name) index) names := by
  rw [List.map_eq_flatMap]
  exact Building.performs_mapM (fun name => Building.performs_request (.className name)) names

theorem DeclaredInnerClass.performs_build (declared : DeclaredInnerClass) :
    Building.Performs declared.build declared.requests fun answers =>
      declared.Assembled answers := by
  rw [requests, List.append_assoc]
  refine (Building.performs_request (.className declared.inner)).bind fun inner => ?_
  have houter := Building.performs_ifAny .className PoolBuilder.className (fun _ => rfl)
    declared.outer
  have hname := Building.performs_ifAny .text PoolBuilder.text (fun _ => rfl) declared.name
  refine houter.bind fun outer => hname.return ?_
  intro answers name hname houter hinner
  exact ⟨hinner, houter, hname, rfl⟩

/-- The value is built before the name of the attribute is looked up. -/
theorem AttributeFormat.performs_build {α : Type} (format : AttributeFormat α)
    {value : Building α} {requests : List PoolRequest} {result : Answers → α → Prop}
    (h : Building.Performs value requests result) :
    Building.Performs (format.build value) (requests ++ [.text format.name]) fun answers encoded =>
      ∃ content, result answers content ∧ format.Holds answers content encoded := by
  refine h.bind fun content => ?_
  refine (Building.performs_request (.text format.name)).return ?_
  intro answers name hname hcontent
  exact ⟨content, hcontent, hname, rfl⟩

theorem DeclaredAttribute.performs_build (declared : DeclaredAttribute) :
    Building.Performs declared.build declared.requests fun answers =>
      declared.Assembled answers := by
  cases declared with
  | synthetic =>
    refine (AttributeFormat.synthetic.performs_build (Building.performs_pure ())).mono ?_
    rintro answers encoded ⟨content, -, hholds⟩
    exact hholds
  | deprecated =>
    refine (AttributeFormat.deprecated.performs_build (Building.performs_pure ())).mono ?_
    rintro answers encoded ⟨content, -, hholds⟩
    exact hholds
  | signature text =>
    exact AttributeFormat.signature.performs_build (Building.performs_request (.text text))
  | constantValue literal =>
    have hliteral := Building.performs_request literal.request
    rw [← literal.build_eq] at hliteral
    exact AttributeFormat.constantValue.performs_build hliteral
  | exceptions classes =>
    exact AttributeFormat.exceptions.performs_build (performs_className classes)
  | innerClasses entries =>
    exact AttributeFormat.innerClasses.performs_build
      (Building.performs_mapM DeclaredInnerClass.performs_build entries)
  | enclosingMethod className method =>
    have hmethod := Building.performs_ifAny (fun (name, descriptor) => .nameAndType name descriptor)
      (fun (name, descriptor) => PoolBuilder.nameAndType name descriptor) (fun _ => rfl) method
    have hplace (index : PoolIndex) : Building.Performs
        (PoolBuilder.optional (fun (name, descriptor) => PoolBuilder.nameAndType name descriptor)
          method >>= fun last => pure (⟨index, last⟩ : EnclosingMethod)) _ fun answers place =>
        answers (.className className) index → answers (.className className) place.className ∧
          PoolRequest.AnsweredIfAny answers (fun (name, descriptor) => .nameAndType name descriptor)
            method place.method :=
      hmethod.return fun answers last hlast hclass => ⟨hclass, hlast⟩
    have hboth := (Building.performs_request (.className className)).bind hplace
    refine (AttributeFormat.enclosingMethod.performs_build hboth).mono ?_
    rintro answers encoded ⟨place, ⟨hclass, hlast⟩, hholds⟩
    exact ⟨place, hclass, hlast, hholds⟩
  | raw name info =>
    refine (Building.performs_request (.text name)).return ?_
    intro answers index hname
    exact ⟨hname, rfl⟩

theorem MemberDeclaration.performs_build {scope : FlagScope} (declared : MemberDeclaration scope) :
    Building.Performs declared.build declared.requests fun answers =>
      declared.Assembled answers := by
  refine (Building.performs_request (.text declared.name)).bind fun name => ?_
  refine (Building.performs_request (.text declared.descriptor)).bind fun descriptor => ?_
  refine (Building.performs_mapM DeclaredAttribute.performs_build declared.attributes).return ?_
  intro answers attributes hattributes hdescriptor hname
  exact ⟨rfl, hname, hdescriptor, hattributes⟩

/-- Building a class makes the calls that the declaration lists, and the body
is assembled from their answers. -/
theorem ClassDeclaration.performs_build (declared : ClassDeclaration) :
    Building.Performs declared.build declared.requests fun answers =>
      declared.Assembled answers := by
  simp only [requests, List.append_assoc]
  refine (Building.performs_request (.className declared.name)).bind fun thisClass => ?_
  have hsuper := Building.performs_ifAny .className PoolBuilder.className (fun _ => rfl)
    declared.superClass
  refine hsuper.bind fun superClass => ?_
  refine (performs_className declared.interfaces).bind fun interfaces => ?_
  refine (Building.performs_mapM MemberDeclaration.performs_build declared.fields).bind
    fun fields => ?_
  refine (Building.performs_mapM MemberDeclaration.performs_build declared.methods).bind
    fun methods => ?_
  refine (Building.performs_mapM DeclaredAttribute.performs_build declared.attributes).return ?_
  intro answers attributes hattributes hmethods hfields hinterfaces hsuper hthis
  exact ⟨rfl, hthis, hsuper, hinterfaces, hfields, hmethods, hattributes⟩

end ClassDelta
