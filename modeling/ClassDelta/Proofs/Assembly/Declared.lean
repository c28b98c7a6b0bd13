import ClassDelta.Described.ClassInfo
import ClassDelta.Proofs.Assembly.Assembled
import ClassDelta.Proofs.Attributes
import ClassDelta.Proofs.ClassFile.RoundTrip

/-!
# What a declaration says

`ClassDeclaration.described` says outright what is known of a declared class
once it has been assembled, written and read: of several attributes of one kind
the first one counts, and attributes of other kinds do not matter.

`ClassDeclaration.Fits` collects what a declaration has to keep to so that
nothing is lost on the way.  What is assembled from a declaration that fits can
be written (`ClassDeclaration.Assembled.fits`).
-/

namespace ClassDelta

open Codec (FitsCounted)

/-! ## What is declared -/

/-- The literal as it is shown.  What is pushed is not looked at. -/
def DeclaredLiteral.rendered? : DeclaredLiteral → Option String
  | integer value => some (toString value.toInt)
  | long value => some (toString value.toInt ++ "L")
  | string value => some (Quoted.quote value)
  | constant _ => none

namespace DeclaredAttribute

/-- The name of the attribute. -/
def name : DeclaredAttribute → String
  | synthetic => AttributeFormat.synthetic.name
  | deprecated => AttributeFormat.deprecated.name
  | signature _ => AttributeFormat.signature.name
  | constantValue _ => AttributeFormat.constantValue.name
  | exceptions _ => AttributeFormat.exceptions.name
  | innerClasses _ => AttributeFormat.innerClasses.name
  | enclosingMethod _ _ => AttributeFormat.enclosingMethod.name
  | raw name _ => name

def synthetic? : DeclaredAttribute → Option Unit
  | synthetic => some ()
  | _ => none

def deprecated? : DeclaredAttribute → Option Unit
  | deprecated => some ()
  | _ => none

def signature? : DeclaredAttribute → Option String
  | signature text => some text
  | _ => none

def literal? : DeclaredAttribute → Option DeclaredLiteral
  | constantValue literal => some literal
  | _ => none

def exceptions? : DeclaredAttribute → Option (List String)
  | exceptions classes => some classes
  | _ => none

def innerClasses? : DeclaredAttribute → Option (List DeclaredInnerClass)
  | innerClasses entries => some entries
  | _ => none

/-- The class that an attribute for local classes names. -/
def enclosingClass? : DeclaredAttribute → Option String
  | enclosingMethod className _ => some className
  | _ => none

/-- The names that mean something. -/
def formatNames : List String :=
  [AttributeFormat.synthetic.name, AttributeFormat.deprecated.name, AttributeFormat.signature.name,
    AttributeFormat.constantValue.name, AttributeFormat.exceptions.name,
    AttributeFormat.innerClasses.name, AttributeFormat.enclosingMethod.name]

/-- Lists can be counted.  An attribute that is given by its bytes has a length
that can be written, and a name that means nothing here. -/
def Fits : DeclaredAttribute → Prop
  | exceptions classes => classes.length ≤ 65535
  | innerClasses entries => entries.length ≤ 65535
  | raw name info => name ∉ formatNames ∧ info.length < 2 ^ 32
  | _ => True

instance : DecidablePred Fits
  | exceptions classes => inferInstanceAs (Decidable (classes.length ≤ 65535))
  | innerClasses entries => inferInstanceAs (Decidable (entries.length ≤ 65535))
  | raw name info => inferInstanceAs (Decidable (name ∉ formatNames ∧ info.length < 2 ^ 32))
  | synthetic | deprecated | signature _ | constantValue _ | enclosingMethod _ _ =>
    inferInstanceAs (Decidable True)

end DeclaredAttribute

/-- What only members of the kind have. -/
def MemberKind.declaredDetail (attributes : List DeclaredAttribute) :
    (kind : MemberKind) → kind.Detail
  | field => (attributes.findSome? DeclaredAttribute.literal?).bind DeclaredLiteral.rendered?
  | method => (attributes.findSome? DeclaredAttribute.exceptions?).getD []

namespace MemberDeclaration

variable {kind : MemberKind}

/-- The name and descriptor of the member. -/
def key {scope : FlagScope} (declared : MemberDeclaration scope) : String × String :=
  (declared.name, declared.descriptor)

/-- The member of the class called `owner` that is declared. -/
def described (owner : String) (declared : MemberDeclaration kind.scope) : Member kind where
  owner := owner
  name := declared.name
  descriptor := declared.descriptor
  flags := declared.flags
  signature := declared.attributes.findSome? DeclaredAttribute.signature?
  detail := kind.declaredDetail declared.attributes
  syntheticAttribute := declared.attributes.contains .synthetic
  deprecated := declared.attributes.contains .deprecated

/-- The attributes can be counted, and each of them fits. -/
def Fits {scope : FlagScope} (declared : MemberDeclaration scope) : Prop :=
  FitsCounted DeclaredAttribute.Fits declared.attributes

instance {scope : FlagScope} : DecidablePred (@Fits scope) :=
  fun declared =>
    inferInstanceAs (Decidable (FitsCounted DeclaredAttribute.Fits declared.attributes))

end MemberDeclaration

namespace ClassDeclaration

/-- The class around the class: the one in its own inner class entry, or else
the one that the attribute for local classes names. -/
def outerClass? (declared : ClassDeclaration) : Option String :=
  let entries := declared.attributes.findSome? DeclaredAttribute.innerClasses?
  let own := entries.bind fun entries => entries.find? fun entry => entry.inner = declared.name
  match own.bind DeclaredInnerClass.outer with
  | some outer => some outer
  | none => declared.attributes.findSome? DeclaredAttribute.enclosingClass?

/-- The class that is declared. -/
def described (declared : ClassDeclaration) : ClassInfo where
  name := declared.name
  version := declared.version
  flags := declared.flags
  superClass := declared.superClass
  interfaces := declared.interfaces
  fields := declared.fields.map (MemberDeclaration.described declared.name)
  methods := declared.methods.map (MemberDeclaration.described declared.name)
  outerClass := declared.outerClass?
  signature := declared.attributes.findSome? DeclaredAttribute.signature?
  syntheticAttribute := declared.attributes.contains .synthetic
  deprecated := declared.attributes.contains .deprecated

/-- The declarations that can be written without loss: the version is one that
is read, lists can be counted, members are distinct, and no text is too long. -/
structure Fits (supported : VersionRange) (declared : ClassDeclaration) : Prop where
  version : supported.contains declared.version = true
  interfaces : declared.interfaces.length ≤ 65535
  fields : FitsCounted MemberDeclaration.Fits declared.fields
  methods : FitsCounted MemberDeclaration.Fits declared.methods
  attributes : FitsCounted DeclaredAttribute.Fits declared.attributes
  distinctFields : (declared.fields.map MemberDeclaration.key).Nodup
  distinctMethods : (declared.methods.map MemberDeclaration.key).Nodup
  requests : ∀ request ∈ declared.requests, request.Fits

end ClassDeclaration

/-! ## Written sizes -/

theorem AttributeFormat.Holds.fits {α : Type} {format : AttributeFormat α} {answers : Answers}
    {value : α} {encoded : RawAttribute} (h : format.Holds answers value encoded)
    (hlength : (format.codec.write value).length < 2 ^ 32) : encoded.Fits := by
  unfold RawAttribute.Fits
  rw [h.info]
  exact hlength

/-- The attribute is short enough for its length to be written. -/
theorem DeclaredAttribute.Assembled.fits {answers : Answers} {declared : DeclaredAttribute}
    {encoded : RawAttribute} (h : declared.Assembled answers encoded) (hfits : declared.Fits) :
    encoded.Fits := by
  cases declared with
  | synthetic => exact AttributeFormat.Holds.fits h (by decide)
  | deprecated => exact AttributeFormat.Holds.fits h (by decide)
  | signature text =>
    obtain ⟨index, -, hholds⟩ := h
    have hlength : (AttributeFormat.signature.codec.write index).length = 2 :=
      Codec.hasFixedSize_uint16 index
    exact hholds.fits (by omega)
  | constantValue literal =>
    obtain ⟨index, -, hholds⟩ := h
    have hlength : (AttributeFormat.constantValue.codec.write index).length = 2 :=
      Codec.hasFixedSize_uint16 index
    exact hholds.fits (by omega)
  | exceptions classes =>
    obtain ⟨indices, hindices, hholds⟩ := h
    have hcount : indices.length ≤ 65535 := hindices.length_eq ▸ hfits
    have hlength : (AttributeFormat.exceptions.codec.write indices).length =
        2 + indices.length * 2 := Codec.hasFixedSize_uint16.length_counted indices
    exact hholds.fits (by omega)
  | innerClasses declaredEntries =>
    obtain ⟨entries, hentries, hholds⟩ := h
    have hcount : entries.length ≤ 65535 := hentries.length_eq ▸ hfits
    have hlength : (AttributeFormat.innerClasses.codec.write entries).length =
        2 + entries.length * 8 := InnerClass.hasFixedSize_codec.length_counted entries
    exact hholds.fits (by omega)
  | enclosingMethod className method =>
    obtain ⟨place, -, -, hholds⟩ := h
    have hlength : (AttributeFormat.enclosingMethod.codec.write place).length = 4 :=
      EnclosingMethod.hasFixedSize_codec place
    exact hholds.fits (by omega)
  | raw name info =>
    unfold RawAttribute.Fits
    rw [h.2]
    exact hfits.2

theorem fitsCounted_of_forall₂ {α β : Type} {fits : α → Prop} {fits' : β → Prop}
    {related : α → β → Prop} {declared : List α} {encoded : List β}
    (h : List.Forall₂ related declared encoded) (hfits : FitsCounted fits declared)
    (hone : ∀ expected value, related expected value → fits expected → fits' value) :
    FitsCounted fits' encoded := by
  refine ⟨h.length_eq ▸ hfits.1, ?_⟩
  have hboth := (List.forall₂_and_left _ _).2 ⟨hfits.2, h⟩
  clear h hfits
  induction hboth with
  | nil => simp
  | cons hfirst _ ih =>
    rw [List.forall_mem_cons]
    exact ⟨hone _ _ hfirst.2 hfirst.1, ih⟩

theorem MemberDeclaration.Assembled.fits {scope : FlagScope} {answers : Answers}
    {declared : MemberDeclaration scope} {member : RawMember scope}
    (h : declared.Assembled answers member) (hfits : declared.Fits) : member.Fits :=
  fitsCounted_of_forall₂ h.attributes hfits fun _ _ => DeclaredAttribute.Assembled.fits

theorem ClassDeclaration.Assembled.fits {supported : VersionRange} {answers : Answers}
    {declared : ClassDeclaration} {body : ClassBody} (h : declared.Assembled answers body)
    (hfits : declared.Fits supported) : body.Fits where
  interfaces := h.interfaces.length_eq ▸ hfits.interfaces
  fields := fitsCounted_of_forall₂ h.fields hfits.fields fun _ _ => MemberDeclaration.Assembled.fits
  methods :=
    fitsCounted_of_forall₂ h.methods hfits.methods fun _ _ => MemberDeclaration.Assembled.fits
  attributes :=
    fitsCounted_of_forall₂ h.attributes hfits.attributes fun _ _ => DeclaredAttribute.Assembled.fits

end ClassDelta
