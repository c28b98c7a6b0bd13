import ClassDelta.Attributes

/-!
# Class files

A `ClassFile` is what the bytes of a class file hold, with everything outside
of the constant pool still referring into it by index.

`ClassFile.parse` reads the parts in file order and stops at the first one that
is wrong: the magic number, the version, the constant pool, the rest, and bytes
left over at the end.  `ClassFile.write` writes the parts back.
-/

namespace ClassDelta

/-- A field or a method as it stands in a class file. -/
structure RawMember (scope : FlagScope) where
  flags : Flags scope
  name : PoolIndex
  descriptor : PoolIndex
  attributes : List RawAttribute
deriving DecidableEq

namespace RawMember

def codec (scope : FlagScope) : Codec (RawMember scope) :=
  ((Flags.codec scope).pair <| Codec.uint16.pair <| Codec.uint16.pair
      RawAttribute.codec.counted).via
    (fun member => (member.flags, member.name, member.descriptor, member.attributes))
    (fun (flags, name, descriptor, attributes) => ⟨flags, name, descriptor, attributes⟩)

end RawMember

/-- The part of a class file behind its constant pool. -/
structure ClassBody where
  flags : Flags .ofClass
  thisClass : PoolIndex
  /-- 0 for a class without a superclass. -/
  superClass : PoolIndex
  interfaces : List PoolIndex
  fields : List (RawMember .ofField)
  methods : List (RawMember .ofMethod)
  attributes : List RawAttribute
deriving DecidableEq

namespace ClassBody

def codec : Codec ClassBody :=
  ((Flags.codec .ofClass).pair <| Codec.uint16.pair <| Codec.uint16.pair <|
      Codec.uint16.counted.pair <| (RawMember.codec .ofField).counted.pair <|
      (RawMember.codec .ofMethod).counted.pair RawAttribute.codec.counted).via
    (fun body => (body.flags, body.thisClass, body.superClass, body.interfaces, body.fields,
      body.methods, body.attributes))
    (fun (flags, thisClass, superClass, interfaces, fields, methods, attributes) =>
      ⟨flags, thisClass, superClass, interfaces, fields, methods, attributes⟩)

end ClassBody

/-- The contents of a class file. -/
structure ClassFile extends ClassBody where
  version : Version
  pool : Pool

namespace ClassFile

/-- The number every class file starts with. -/
def magic : UInt32 := 0xCAFEBABE

/-- The bytes of a class file. -/
def write (file : ClassFile) : Bytes :=
  Codec.uint32.write magic ++ Version.codec.write file.version ++ file.pool.write ++
    ClassBody.codec.write file.toClassBody

/-- Read the magic number and the version.  Files of other versions are turned
down before anything else of them is looked at. -/
def readVersion (supported : VersionRange) : Reader Version := do
  let found ← Codec.uint32.read
  if found = magic then
    let version ← Version.codec.read
    if supported.contains version then return version
    else throw (.unsupportedVersion version supported)
  else throw (.malformedClass (.badMagic found))

/-- Read everything up to the end of the constant pool. -/
def readPreamble (supported : VersionRange) : Reader (Version × Pool) := do
  let version ← readVersion supported
  let pool ← Pool.read
  return (version, pool)

/-- Read a class file, which has to end where its last attribute does. -/
def read (supported : VersionRange) : Reader ClassFile := do
  let (version, pool) ← readPreamble supported
  let body ← ClassBody.codec.read
  let cursor ← get
  if cursor.atEnd then return { body with version, pool }
  else throw (.malformedClass (.trailingBytes cursor.remaining))

/-- The class file that the bytes hold. -/
def parse (supported : VersionRange) (bytes : Bytes) : Except ParseError ClassFile :=
  Reader.run (read supported) bytes

end ClassFile

end ClassDelta
