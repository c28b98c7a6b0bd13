import ClassDelta.AccessFlags
import ClassDelta.TypeDescriptor

/-!
# Fields and methods

A `Member` is a field or a method with all of its names resolved.  What the two
have in common is stored once; the rest, the constant of a field and the
exceptions of a method, is its `detail`.
-/

namespace ClassDelta

/-- Fields and methods. -/
inductive MemberKind
  | field
  | method
deriving DecidableEq

namespace MemberKind

/-- The flags that members of the kind have. -/
@[reducible] def scope : MemberKind → FlagScope
  | field => .ofField
  | method => .ofMethod

theorem scope_ne_ofInnerClass (kind : MemberKind) : kind.scope ≠ .ofInnerClass := by
  cases kind <;> decide

/-- What only members of the kind have: the literal that initialises a constant
field, or the classes in the `throws` clause of a method. -/
@[reducible] def Detail : MemberKind → Type
  | field => Option String
  | method => List String

instance (kind : MemberKind) : DecidableEq kind.Detail :=
  match kind with
  | field => inferInstanceAs (DecidableEq (Option String))
  | method => inferInstanceAs (DecidableEq (List String))

end MemberKind

/-- A field or a method that a class declares. -/
structure Member (kind : MemberKind) where
  /-- The class that declares the member. -/
  owner : String
  name : String
  descriptor : String
  flags : Flags kind.scope
  /-- The generic signature. -/
  signature : Option String
  detail : kind.Detail
  /-- The member carries the attribute for what has no source counterpart. -/
  syntheticAttribute : Bool
  deprecated : Bool
deriving DecidableEq

abbrev FieldInfo := Member .field

abbrev MethodInfo := Member .method

/-- What tells a member from the others of its class.  Overloads differ in
their descriptors. -/
structure MemberId where
  kind : MemberKind
  name : String
  descriptor : String
deriving DecidableEq

namespace MemberId

/-- A field is shown as `name:descriptor`, a method as its name followed by its
descriptor. -/
def text (id : MemberId) : String :=
  match id.kind with
  | .field => id.name ++ ":" ++ id.descriptor
  | .method => id.name ++ id.descriptor

end MemberId

namespace Member

variable {kind : MemberKind}

/-- The name and descriptor of the member. -/
def key (member : Member kind) : String × String := (member.name, member.descriptor)

/-- The identity of the member in its class. -/
def id (member : Member kind) : MemberId := ⟨kind, member.name, member.descriptor⟩

/-- The member is marked as inserted by a compiler, by flag or by attribute. -/
def isMarkedSynthetic (member : Member kind) : Bool :=
  member.flags.has AccessBit.synthetic || member.syntheticAttribute

/-- The method exists so that overriding works after erasure. -/
def isBridge (method : MethodInfo) : Bool := method.flags.has AccessBit.bridge

/-- The method initialises instances. -/
def isConstructor (method : MethodInfo) : Bool := method.name == "<init>"

/-! ## Declarations -/

/-- Every modifier with a blank behind it. -/
def modifierText (member : Member kind) : String :=
  String.join (member.flags.modifiers.map (· ++ " "))

/-- The declaration of a field.  A descriptor that is none stands for itself. -/
def fieldDeclaration (field : FieldInfo) : String :=
  let type := match FieldType.read.parse field.descriptor with
    | .ok type => type.source
    | .error _ => field.descriptor
  let initialiser := match field.detail with
    | some literal => " = " ++ literal
    | none => ""
  field.modifierText ++ type ++ " " ++ field.name ++ initialiser

/-- The part of a class name behind its last slash. -/
def simpleName (className : String) : String :=
  String.ofList (className.toList.reverse.takeWhile (· != '/')).reverse

/-- The `throws` clause of a method, with a blank in front. -/
def throwsText (method : MethodInfo) : String :=
  match method.detail with
  | [] => ""
  | exceptions => " throws " ++ ", ".intercalate (exceptions.map sourceClassName)

/-- The declaration of a method.  A constructor goes by the name of its class
and has no return type; a descriptor that is none follows the name as it is. -/
def methodDeclaration (method : MethodInfo) : String :=
  if method.name = "<clinit>" then "static \x7b\x7d"
  else
    match MethodType.read.parse method.descriptor with
    | .error _ => method.modifierText ++ method.name ++ method.descriptor
    | .ok type =>
      let head :=
        if method.isConstructor then simpleName method.owner
        else type.sourceResult ++ " " ++ method.name
      method.modifierText ++ head ++ "(" ++ type.sourceParameters ++ ")" ++ method.throwsText

/-- The member as source code declares it, without body. -/
def declaration : {kind : MemberKind} → Member kind → String
  | .field, field => field.fieldDeclaration
  | .method, method => method.methodDeclaration

end Member

end ClassDelta
