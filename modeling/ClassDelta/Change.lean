import ClassDelta.Classification

/-!
# Changes

A `Change` is one difference between two versions of a class: something was
added, removed or modified.  A modification lists the aspects that differ as
`Delta` values.

A change is about a class or about one of its members, its `Subject`.  About a
class it carries the `ClassHeader`, which is the class without its members.
-/

namespace ClassDelta

/-- A class without its members. -/
structure ClassHeader where
  name : String
  version : Version
  flags : Flags .ofClass
  superClass : Option String
  interfaces : List String
  outerClass : Option String
  signature : Option String
  deprecated : Bool
deriving DecidableEq

namespace ClassInfo

/-- The class without its members. -/
def header (info : ClassInfo) : ClassHeader where
  name := info.name
  version := info.version
  flags := info.flags
  superClass := info.superClass
  interfaces := info.interfaces
  outerClass := info.outerClass
  signature := info.signature
  deprecated := info.deprecated

end ClassInfo

namespace ClassHeader

/-- The keyword that declares the class. -/
def keyword (header : ClassHeader) : String :=
  if header.flags.has AccessBit.annotationType then "@interface"
  else if header.flags.has AccessBit.interface then "interface"
  else if header.flags.has AccessBit.enumeration then "enum"
  else "class"

/-- A modifier that the keyword implies: interfaces are abstract and
enumerations are final. -/
def implies (header : ClassHeader) (modifier : String) : Bool :=
  modifier == "abstract" && header.flags.has AccessBit.interface ||
    modifier == "final" && header.flags.has AccessBit.enumeration

/-- The line that declares the class, as in `public final class java.lang.String`. -/
def declaration (header : ClassHeader) : String :=
  let modifiers := header.flags.modifiers.filter fun modifier => !header.implies modifier
  String.join (modifiers.map (· ++ " ")) ++ header.keyword ++ " " ++ sourceClassName header.name

end ClassHeader

/-- What a change is about. -/
inductive Subject
  | ofClass (header : ClassHeader)
  | member {kind : MemberKind} (declared : Member kind)
deriving DecidableEq

namespace Subject

/-- The name of the class or of the member. -/
def name : Subject → String
  | ofClass header => header.name
  | member declared => declared.name

/-- The subject as source code declares it. -/
def declaration : Subject → String
  | ofClass header => header.declaration
  | member declared => declared.declaration

end Subject

/-- Old and new value of something that differs. -/
structure Replaced (α : Type) where
  old : α
  new : α
deriving DecidableEq

/-- What a set has gained and what it has lost. -/
structure SetDelta where
  added : List String
  removed : List String
deriving DecidableEq

/-- An aspect in which two versions of a class or of a member differ. -/
inductive Delta
  | flags (names : SetDelta)
  | signature (value : Replaced (Option String))
  | exceptions (classes : SetDelta)
  | constantValue (literal : Replaced (Option String))
  | deprecated (mark : Replaced Bool)
  | superClass (name : Replaced (Option String))
  | interfaces (classes : SetDelta)
  | version (version : Replaced Version)
  | outerClass (name : Replaced (Option String))
deriving DecidableEq

/-- One difference between the old and the new version of a class. -/
inductive Change
  | added (subject : Subject) (classification : Classification)
  | removed (subject : Subject) (classification : Classification)
  /-- The classification is the one of the new version. -/
  | modified (old new : Subject) (deltas : List Delta) (classification : Classification)
deriving DecidableEq

/-- What happened to the subject of a change. -/
inductive ChangeKind
  | added
  | removed
  | modified
deriving DecidableEq

namespace Change

def kind : Change → ChangeKind
  | added _ _ => .added
  | removed _ _ => .removed
  | modified _ _ _ _ => .modified

def classification : Change → Classification
  | added _ classification => classification
  | removed _ classification => classification
  | modified _ _ _ classification => classification

/-- The subject after the change, or before it for a removal. -/
def subject : Change → Subject
  | added subject _ => subject
  | removed subject _ => subject
  | modified _ new _ _ => new

end Change

end ClassDelta
