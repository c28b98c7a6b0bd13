import ClassDelta.ClassFile
import ClassDelta.Pool.Builder

/-!
# Assembling class files

A `ClassDeclaration` says by name what a class file says by index.
`ClassDeclaration.assemble` interns the names into a constant pool on the way to
the class file: the class, its superclass and interfaces, then its fields,
methods and attributes.  What an attribute holds is interned before its name.
-/

namespace ClassDelta

/-- The value of a field that is known without running code. -/
inductive DeclaredLiteral
  | integer (value : Int32)
  | long (value : Int64)
  | string (value : String)
  /-- An entry that is added to the pool in any case. -/
  | constant (constant : Constant)
deriving DecidableEq

/-- A nested class that a class mentions. -/
structure DeclaredInnerClass where
  inner : String
  outer : Option String
  name : Option String
  flags : Flags .ofInnerClass
deriving DecidableEq

/-- An attribute of a class or a member. -/
inductive DeclaredAttribute
  | synthetic
  | deprecated
  | signature (text : String)
  | constantValue (literal : DeclaredLiteral)
  | exceptions (classes : List String)
  | innerClasses (entries : List DeclaredInnerClass)
  /-- The class around a local class, and the name and descriptor of the method
  around it. -/
  | enclosingMethod (className : String) (method : Option (String × String))
  | raw (name : String) (info : Bytes)
deriving DecidableEq

/-- A field or a method. -/
structure MemberDeclaration (scope : FlagScope) where
  flags : Flags scope
  name : String
  descriptor : String
  attributes : List DeclaredAttribute
deriving DecidableEq

/-- A class with everything its class file says about it. -/
structure ClassDeclaration where
  name : String
  superClass : Option String
  interfaces : List String
  flags : Flags .ofClass
  version : Version
  fields : List (MemberDeclaration .ofField)
  methods : List (MemberDeclaration .ofMethod)
  attributes : List DeclaredAttribute
deriving DecidableEq

/-! ## Interning -/

namespace PoolBuilder

/-- The index of what may be absent, which is 0 if it is. -/
def optional {α : Type} (build : α → Building PoolIndex) : Option α → Building PoolIndex
  | some value => build value
  | none => pure 0

end PoolBuilder

namespace DeclaredLiteral

def build : DeclaredLiteral → Building PoolIndex
  | integer value => PoolBuilder.integer value
  | long value => PoolBuilder.long value
  | string value => PoolBuilder.string value
  | constant value => PoolBuilder.push value

end DeclaredLiteral

namespace DeclaredInnerClass

def build (entry : DeclaredInnerClass) : Building InnerClass := do
  let inner ← PoolBuilder.className entry.inner
  let outer ← PoolBuilder.optional PoolBuilder.className entry.outer
  let name ← PoolBuilder.optional PoolBuilder.text entry.name
  return ⟨inner, outer, name, entry.flags⟩

end DeclaredInnerClass

namespace AttributeFormat

/-- An attribute of this format whose value comes from interning. -/
def build {α : Type} (format : AttributeFormat α) (value : Building α) :
    Building RawAttribute := do
  let info := format.codec.write (← value)
  return ⟨← PoolBuilder.text format.name, info⟩

end AttributeFormat

namespace DeclaredAttribute

def build : DeclaredAttribute → Building RawAttribute
  | synthetic => AttributeFormat.synthetic.build (pure ())
  | deprecated => AttributeFormat.deprecated.build (pure ())
  | signature text => AttributeFormat.signature.build (PoolBuilder.text text)
  | constantValue literal => AttributeFormat.constantValue.build literal.build
  | exceptions classes => AttributeFormat.exceptions.build (classes.mapM PoolBuilder.className)
  | innerClasses entries =>
    AttributeFormat.innerClasses.build (entries.mapM DeclaredInnerClass.build)
  | enclosingMethod className method => AttributeFormat.enclosingMethod.build do
      let className ← PoolBuilder.className className
      let method ← PoolBuilder.optional
        (fun (name, descriptor) => PoolBuilder.nameAndType name descriptor) method
      return ⟨className, method⟩
  | raw name info => do return ⟨← PoolBuilder.text name, info⟩

end DeclaredAttribute

namespace MemberDeclaration

def build {scope : FlagScope} (declared : MemberDeclaration scope) :
    Building (RawMember scope) := do
  let name ← PoolBuilder.text declared.name
  let descriptor ← PoolBuilder.text declared.descriptor
  let attributes ← declared.attributes.mapM DeclaredAttribute.build
  return ⟨declared.flags, name, descriptor, attributes⟩

end MemberDeclaration

namespace ClassDeclaration

def build (declared : ClassDeclaration) : Building ClassBody := do
  let thisClass ← PoolBuilder.className declared.name
  let superClass ← PoolBuilder.optional PoolBuilder.className declared.superClass
  let interfaces ← declared.interfaces.mapM PoolBuilder.className
  let fields ← declared.fields.mapM MemberDeclaration.build
  let methods ← declared.methods.mapM MemberDeclaration.build
  let attributes ← declared.attributes.mapM DeclaredAttribute.build
  return ⟨declared.flags, thisClass, superClass, interfaces, fields, methods, attributes⟩

/-- The class file of a declaration. -/
def assemble (declared : ClassDeclaration) : Except PoolOverflow ClassFile :=
  match declared.build PoolBuilder.fresh with
  | .ok body builder => .ok { body with version := declared.version, pool := builder.pool }
  | .error overflow _ => .error overflow

end ClassDeclaration

end ClassDelta
