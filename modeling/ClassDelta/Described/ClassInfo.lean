import ClassDelta.ClassFile
import ClassDelta.Described.Member

/-!
# Classes

A `ClassInfo` is a class as far as comparing interfaces is concerned: names,
types, flags and the few attributes that matter, with no constant pool behind
it.  Bodies of methods are not kept, and an outer class is known by name only.

`ClassInfo.ofClassFile` resolves the references of a class file.  Members have
to be distinguishable, so two fields or two methods with the same name and
descriptor are an error.
-/

namespace ClassDelta

/-- What a class file says about a class. -/
structure ClassInfo where
  /-- The binary name, as in `java/util/Map$Entry`. -/
  name : String
  version : Version
  flags : Flags .ofClass
  superClass : Option String
  /-- The direct superinterfaces, in the order of their declaration. -/
  interfaces : List String
  fields : List FieldInfo
  methods : List MethodInfo
  /-- The class around a nested, local or anonymous class. -/
  outerClass : Option String
  signature : Option String
  /-- The class carries the attribute for what has no source counterpart. -/
  syntheticAttribute : Bool
  deprecated : Bool
deriving DecidableEq

namespace ClassInfo

/-- The class is marked as inserted by a compiler, by flag or by attribute. -/
def isSynthetic (info : ClassInfo) : Bool :=
  info.flags.has AccessBit.synthetic || info.syntheticAttribute

/-- The class is nested in another one. -/
def hasOuterClass (info : ClassInfo) : Bool := info.outerClass.isSome

end ClassInfo

/-! ## Resolving members -/

/-- The text of the first signature attribute. -/
def resolveSignature (pool : Pool) (attributes : List RawAttribute) :
    Except ParseError (Option String) := do
  match ← AttributeFormat.signature.find pool attributes with
  | some index => some <$> pool.text index
  | none => return none

/-- The literal of the first constant attribute. -/
def resolveConstant (pool : Pool) (attributes : List RawAttribute) :
    Except ParseError (Option String) := do
  match ← AttributeFormat.constantValue.find pool attributes with
  | some index => some <$> pool.literal index
  | none => return none

/-- The classes of the first exceptions attribute. -/
def resolveExceptions (pool : Pool) (attributes : List RawAttribute) :
    Except ParseError (List String) := do
  match ← AttributeFormat.exceptions.find pool attributes with
  | some classes => classes.mapM pool.className
  | none => return []

namespace MemberKind

/-- What only members of the kind have. -/
def resolveDetail (pool : Pool) (attributes : List RawAttribute) :
    (kind : MemberKind) → Except ParseError kind.Detail
  | field => resolveConstant pool attributes
  | method => resolveExceptions pool attributes

end MemberKind

namespace Member

/-- Resolve the references of a member of the class called `owner`. -/
def ofRaw {kind : MemberKind} (owner : String) (pool : Pool) (raw : RawMember kind.scope) :
    Except ParseError (Member kind) := do
  let detail ← kind.resolveDetail pool raw.attributes
  let signature ← resolveSignature pool raw.attributes
  let name ← pool.text raw.name
  let descriptor ← pool.text raw.descriptor
  let syntheticAttribute ← AttributeFormat.synthetic.isPresent pool raw.attributes
  let deprecated ← AttributeFormat.deprecated.isPresent pool raw.attributes
  return ⟨owner, name, descriptor, raw.flags, signature, detail, syntheticAttribute, deprecated⟩

/-- The first key in the list that occurs before it, if any. -/
def repeatedKey? (seen : List (String × String)) :
    List (String × String) → Option (String × String)
  | [] => none
  | key :: later => if seen.contains key then some key else repeatedKey? (key :: seen) later

/-- Check that no two members have the same name and descriptor. -/
def checkDistinct {kind : MemberKind} (members : List (Member kind)) : Except ParseError Unit :=
  match repeatedKey? [] (members.map key) with
  | some (name, descriptor) => .error (.malformedClass (.duplicateMember name descriptor))
  | none => .ok ()

/-- Resolve the members of one kind. -/
def resolveAll (kind : MemberKind) (owner : String) (pool : Pool)
    (members : List (RawMember kind.scope)) : Except ParseError (List (Member kind)) := do
  let members ← members.mapM (ofRaw owner pool)
  checkDistinct members
  return members

end Member

/-! ## Resolving classes -/

/-- The first of the entries that is about the class called `name`. -/
def findInnerClass (pool : Pool) (name : String) :
    List InnerClass → Except ParseError (Option InnerClass)
  | [] => .ok none
  | entry :: later => do
    if (← pool.className entry.inner) = name then return some entry
    else findInnerClass pool name later

/-- The class that the class's own inner class entry names as the one around
it; local and anonymous classes leave it out. -/
def resolveDeclaringClass (pool : Pool) (name : String) (attributes : List RawAttribute) :
    Except ParseError (Option String) := do
  match ← AttributeFormat.innerClasses.find pool attributes with
  | none => return none
  | some entries =>
    match ← findInnerClass pool name entries with
    | none => return none
    | some entry => pool.className? entry.outer

/-- The class that the attribute of a local or anonymous class names. -/
def resolveEnclosingClass (pool : Pool) (attributes : List RawAttribute) :
    Except ParseError (Option String) := do
  match ← AttributeFormat.enclosingMethod.find pool attributes with
  | some place => some <$> pool.className place.className
  | none => return none

/-- The class around the class called `name`. -/
def resolveOuterClass (pool : Pool) (name : String) (attributes : List RawAttribute) :
    Except ParseError (Option String) := do
  match ← resolveDeclaringClass pool name attributes with
  | some outer => return some outer
  | none => resolveEnclosingClass pool attributes

namespace ClassInfo

/-- Resolve the references of a class file. -/
def ofClassFile (file : ClassFile) : Except ParseError ClassInfo := do
  let name ← file.pool.className file.thisClass
  let superClass ← file.pool.className? file.superClass
  let interfaces ← file.interfaces.mapM file.pool.className
  let fields ← Member.resolveAll .field name file.pool file.fields
  let methods ← Member.resolveAll .method name file.pool file.methods
  let outerClass ← resolveOuterClass file.pool name file.attributes
  let signature ← resolveSignature file.pool file.attributes
  let syntheticAttribute ← AttributeFormat.synthetic.isPresent file.pool file.attributes
  let deprecated ← AttributeFormat.deprecated.isPresent file.pool file.attributes
  return { name, version := file.version, flags := file.flags, superClass, interfaces, fields,
           methods, outerClass, signature, syntheticAttribute, deprecated }

/-- The class that the bytes of a class file describe. -/
def parse (supported : VersionRange) (bytes : Bytes) : Except ParseError ClassInfo := do
  ofClassFile (← ClassFile.parse supported bytes)

end ClassInfo

end ClassDelta
