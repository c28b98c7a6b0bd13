import ClassDelta.AccessFlags
import ClassDelta.Pool.Resolve

/-!
# Attributes

Classes, fields and methods carry attributes: a name and some bytes.  A reader
keeps the bytes as they are, and only the few attributes that say something
about an interface are decoded, when they are asked for.

An `AttributeFormat` is the name of such an attribute and the codec of its
bytes, which have to be used up exactly.  `AttributeFormat.find` looks at the
first attribute of that name and at no later one.
-/

namespace ClassDelta

/-- An attribute as it stands in a class file. -/
structure RawAttribute where
  name : PoolIndex
  info : Bytes
deriving DecidableEq

namespace RawAttribute

/-- The name, and the bytes behind their length in four bytes. -/
def codec : Codec RawAttribute where
  minSize := Codec.uint16.minSize + Codec.uint32.minSize
  write value :=
    Codec.uint16.write value.name ++ Codec.uint32.write (UInt32.ofNat value.info.length) ++
      value.info
  read := do
    let name ← Codec.uint16.read
    let length ← Codec.uint32.read
    let info ← Reader.take length.toNat
    return ⟨name, info⟩

end RawAttribute

/-- The name of an attribute, and the form of its bytes. -/
structure AttributeFormat (α : Type) where
  name : String
  codec : Codec α

namespace AttributeFormat

variable {α : Type}

/-- The value in an attribute's bytes, all of which it has to take up. -/
def decode (format : AttributeFormat α) (info : Bytes) : Except ParseError α :=
  let badLength := .malformedClass (.badAttributeLength format.name info.length)
  match format.codec.read (Cursor.start info) with
  | .ok value cursor => if cursor.atEnd then .ok value else .error badLength
  | .error (.truncated _ _ _) _ => .error badLength
  | .error error _ => .error error

/-- The value of the first attribute with this name. -/
def find (format : AttributeFormat α) (pool : Pool) :
    List RawAttribute → Except ParseError (Option α)
  | [] => .ok none
  | candidate :: later => do
    if (← pool.text candidate.name) = format.name then some <$> format.decode candidate.info
    else find format pool later

/-- There is an attribute with this name, and the first one is well formed. -/
def isPresent (format : AttributeFormat α) (pool : Pool) (attributes : List RawAttribute) :
    Except ParseError Bool :=
  Option.isSome <$> format.find pool attributes

end AttributeFormat

/-! ## The attributes that are decoded -/

/-- How a class refers to one of the nested classes it mentions. -/
structure InnerClass where
  inner : PoolIndex
  /-- 0 for local and anonymous classes. -/
  outer : PoolIndex
  /-- 0 for anonymous classes. -/
  name : PoolIndex
  flags : Flags .ofInnerClass
deriving DecidableEq

namespace InnerClass

def codec : Codec InnerClass :=
  (Codec.uint16.pair <| Codec.uint16.pair <| Codec.uint16.pair <| Flags.codec .ofInnerClass).via
    (fun entry => (entry.inner, entry.outer, entry.name, entry.flags))
    (fun (inner, outer, name, flags) => ⟨inner, outer, name, flags⟩)

end InnerClass

/-- Where a local or anonymous class stands. -/
structure EnclosingMethod where
  className : PoolIndex
  /-- 0 when no method or constructor is around the class. -/
  method : PoolIndex
deriving DecidableEq

namespace EnclosingMethod

def codec : Codec EnclosingMethod :=
  (Codec.uint16.pair Codec.uint16).via
    (fun place => (place.className, place.method))
    (fun (className, method) => ⟨className, method⟩)

end EnclosingMethod

namespace AttributeFormat

/-- The constant that initialises a field. -/
def constantValue : AttributeFormat PoolIndex := ⟨"ConstantValue", Codec.uint16⟩

/-- The classes of the checked exceptions of a method. -/
def exceptions : AttributeFormat (List PoolIndex) := ⟨"Exceptions", Codec.uint16.counted⟩

/-- The nested classes that a class mentions. -/
def innerClasses : AttributeFormat (List InnerClass) := ⟨"InnerClasses", InnerClass.codec.counted⟩

/-- The place of a local or anonymous class. -/
def enclosingMethod : AttributeFormat EnclosingMethod :=
  ⟨"EnclosingMethod", EnclosingMethod.codec⟩

/-- The text of a generic signature. -/
def signature : AttributeFormat PoolIndex := ⟨"Signature", Codec.uint16⟩

/-- Marks what has no counterpart in source code. -/
def synthetic : AttributeFormat Unit := ⟨"Synthetic", Codec.unit⟩

/-- Marks what should not be used any more. -/
def deprecated : AttributeFormat Unit := ⟨"Deprecated", Codec.unit⟩

end AttributeFormat

end ClassDelta
