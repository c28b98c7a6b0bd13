import ClassDelta.Described.ClassInfo

/-!
# Where classes and members come from

Compilers add members that the source code does not have.  Not all of them are
marked by a flag or an attribute, so two naming conventions count as well.  The
first rule that applies decides:

1. a method with the bridge flag is a bridge;
2. a member with the synthetic flag or attribute was inserted by the compiler;
3. so was a field of a nested class called `this$` followed by a digit;
4. so was a method called `access$` followed by a digit;
5. everything else is declared in the source code.
-/

namespace ClassDelta

/-- Where a class or a member comes from. -/
inductive Classification
  | sourceDeclared
  | compilerSynthetic
  /-- Inserted so that overriding works after erasure. -/
  | bridge
deriving DecidableEq

namespace Classification

def text : Classification → String
  | sourceDeclared => "source-declared"
  | compilerSynthetic => "compiler-synthetic"
  | bridge => "bridge"

def isSourceDeclared (classification : Classification) : Bool :=
  classification == sourceDeclared

end Classification

/-- The name is the stem, a digit, and anything.  What follows the first digit
does not matter, as compilers lengthen a name that is taken. -/
def hasNumberedName (stem name : String) : Bool :=
  let stem := stem.toList
  let name := name.toList
  stem.isPrefixOf name && ((name.drop stem.length).head?.map Char.isDigit).getD false

namespace Member

/-- Where a member comes from; `nested` tells whether its class has an outer
class. -/
def classification (nested : Bool) : {kind : MemberKind} → Member kind → Classification
  | .field, field =>
    if field.isMarkedSynthetic || nested && hasNumberedName "this$" field.name then
      .compilerSynthetic
    else .sourceDeclared
  | .method, method =>
    if method.isBridge then .bridge
    else if method.isMarkedSynthetic || hasNumberedName "access$" method.name then
      .compilerSynthetic
    else .sourceDeclared

end Member

/-- The classification of a class and of its members. -/
structure Classifications where
  ofClass : Classification
  members : List (MemberId × Classification)

namespace Classifications

/-- The classification of a member.  The last entry for an identity counts, and
what is not listed is source-declared. -/
def ofMember (classifications : Classifications) (id : MemberId) : Classification :=
  (classifications.members.reverse.lookup id).getD .sourceDeclared

/-- Classify a class and all of its members. -/
def ofInfo (info : ClassInfo) : Classifications where
  ofClass := if info.isSynthetic then .compilerSynthetic else .sourceDeclared
  members :=
    info.fields.map (fun field => (field.id, field.classification info.hasOuterClass)) ++
      info.methods.map (fun method => (method.id, method.classification info.hasOuterClass))

end Classifications

/-- A class together with its classification. -/
structure ClassifiedClass where
  info : ClassInfo
  classifications : Classifications

namespace ClassifiedClass

def ofInfo (info : ClassInfo) : ClassifiedClass := ⟨info, .ofInfo info⟩

/-- The classification of one of the members. -/
def classify {kind : MemberKind} (classified : ClassifiedClass) (member : Member kind) :
    Classification :=
  classified.classifications.ofMember member.id

end ClassifiedClass

end ClassDelta
