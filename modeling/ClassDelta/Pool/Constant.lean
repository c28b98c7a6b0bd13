import ClassDelta.Bytes.Codec
import ClassDelta.OffsetVector
import ClassDelta.Text.ModifiedUtf8

/-!
# Constant pool entries

A `Constant` is one entry of a constant pool: a value, or references to other
entries of the pool.  Floating-point values are kept as their bits.

`Constant.write` and `Constant.read` are the entry's written form: the tag of
its kind, then its payload.
-/

namespace ClassDelta

/-- Entries that refer to one text and say what it names. -/
inductive TextRole
  | className
  | string
  | methodType
  | moduleName
  | packageName
deriving DecidableEq

/-- Which members a member reference may lead to. -/
inductive MemberRole
  | field
  | method
  | interfaceMethod
deriving DecidableEq

/-- What a bootstrap method computes. -/
inductive DynamicRole
  | constant
  | callSite
deriving DecidableEq

/-- What a method handle does with its member. -/
inductive HandleKind
  | getField
  | getStatic
  | putField
  | putStatic
  | invokeVirtual
  | invokeStatic
  | invokeSpecial
  | newInvokeSpecial
  | invokeInterface
deriving DecidableEq

namespace HandleKind

/-- The number of the kind, from 1 to 9. -/
def code : HandleKind → UInt8
  | getField => 1
  | getStatic => 2
  | putField => 3
  | putStatic => 4
  | invokeVirtual => 5
  | invokeStatic => 6
  | invokeSpecial => 7
  | newInvokeSpecial => 8
  | invokeInterface => 9

/-- The kind with a number. -/
def ofCode? (code : UInt8) : Option HandleKind :=
  match code.toNat with
  | 1 => some getField
  | 2 => some getStatic
  | 3 => some putField
  | 4 => some putStatic
  | 5 => some invokeVirtual
  | 6 => some invokeStatic
  | 7 => some invokeSpecial
  | 8 => some newInvokeSpecial
  | 9 => some invokeInterface
  | _ => none

@[simp] theorem ofCode?_code (kind : HandleKind) : ofCode? kind.code = some kind := by
  cases kind <;> rfl

end HandleKind

/-- One entry of a constant pool. -/
inductive Constant
  | utf8 (text : String)
  | integer (value : Int32)
  | float (bits : UInt32)
  | long (value : Int64)
  | double (bits : UInt64)
  /-- What the text at `text` stands for. -/
  | named (role : TextRole) (text : PoolIndex)
  /-- A member of the class at `owner`, with the name and type at `described`. -/
  | member (role : MemberRole) (owner described : PoolIndex)
  | nameAndType (name descriptor : PoolIndex)
  | methodHandle (kind : HandleKind) (target : PoolIndex)
  /-- The result of a bootstrap method, which is numbered outside of the pool. -/
  | dynamic (role : DynamicRole) (bootstrap : UInt16) (described : PoolIndex)
deriving DecidableEq

namespace TextRole

def kind : TextRole → ConstantKind
  | className => .classRef
  | string => .string
  | methodType => .methodType
  | moduleName => .moduleRef
  | packageName => .packageRef

end TextRole

namespace MemberRole

def kind : MemberRole → ConstantKind
  | field => .fieldRef
  | method => .methodRef
  | interfaceMethod => .interfaceMethodRef

end MemberRole

namespace DynamicRole

def kind : DynamicRole → ConstantKind
  | constant => .dynamic
  | callSite => .invokeDynamic

end DynamicRole

namespace Constant

/-- The kind of the entry. -/
def kind : Constant → ConstantKind
  | utf8 _ => .utf8
  | integer _ => .integer
  | float _ => .float
  | long _ => .long
  | double _ => .double
  | named role _ => role.kind
  | member role _ _ => role.kind
  | nameAndType _ _ => .nameAndType
  | methodHandle _ _ => .methodHandle
  | dynamic role _ _ => role.kind

/-- How many slots of the pool the entry takes up.  Eight-byte values take two,
and nothing can be looked up at the second one. -/
def slots : Constant → Nat
  | long _ | double _ => 2
  | _ => 1

instance : Width Constant := ⟨slots⟩

/-- The entries this one refers to, in the order it names them. -/
def references : Constant → List PoolIndex
  | utf8 _ | integer _ | float _ | long _ | double _ => []
  | named _ text => [text]
  | member _ owner described => [owner, described]
  | nameAndType name descriptor => [name, descriptor]
  | methodHandle _ target => [target]
  | dynamic _ _ described => [described]

/-! ## Written form -/

/-- The entry without its tag.  The length of a text is written modulo
`2 ^ 16`. -/
def payload : Constant → Bytes
  | utf8 text =>
    let encoded := ModifiedUtf8.encode text
    Codec.uint16.write (UInt16.ofNat encoded.length) ++ encoded
  | integer value => Codec.int32.write value
  | float bits => Codec.uint32.write bits
  | long value => Codec.int64.write value
  | double bits => Codec.uint64.write bits
  | named _ text => Codec.uint16.write text
  | member _ owner described => Codec.uint16.write owner ++ Codec.uint16.write described
  | nameAndType name descriptor => Codec.uint16.write name ++ Codec.uint16.write descriptor
  | methodHandle kind target => Codec.uint8.write kind.code ++ Codec.uint16.write target
  | dynamic _ bootstrap described =>
    Codec.uint16.write bootstrap ++ Codec.uint16.write described

/-- The entry with its tag in front. -/
def write (constant : Constant) : Bytes :=
  Codec.uint8.write constant.kind.tag ++ constant.payload

/-- The entry at `index` is at fault. -/
def fail {α : Type} (index : PoolIndex) (defect : PoolDefect) : Reader α :=
  throw (.malformedPool index defect)

/-- Read a text behind its length in bytes. -/
def readText (index : PoolIndex) : Reader Constant := do
  let length ← Codec.uint16.read
  let bytes ← Reader.take length.toNat
  match ModifiedUtf8.decode bytes with
  | some text => return utf8 text
  | none => fail index .invalidText

/-- Read a method handle. -/
def readHandle (index : PoolIndex) : Reader Constant := do
  let code ← Codec.uint8.read
  match HandleKind.ofCode? code with
  | some kind => return methodHandle kind (← Codec.uint16.read)
  | none => fail index (.invalidHandleKind code)

/-- Read two references, or a number and a reference. -/
def readTwo (build : UInt16 → UInt16 → Constant) : Reader Constant := do
  let first ← Codec.uint16.read
  let second ← Codec.uint16.read
  return build first second

/-- Read what follows the tag of an entry. -/
def readPayload (index : PoolIndex) : ConstantKind → Reader Constant
  | .utf8 => readText index
  | .integer => integer <$> Codec.int32.read
  | .float => float <$> Codec.uint32.read
  | .long => long <$> Codec.int64.read
  | .double => double <$> Codec.uint64.read
  | .classRef => named .className <$> Codec.uint16.read
  | .string => named .string <$> Codec.uint16.read
  | .fieldRef => readTwo (member .field)
  | .methodRef => readTwo (member .method)
  | .interfaceMethodRef => readTwo (member .interfaceMethod)
  | .nameAndType => readTwo nameAndType
  | .methodHandle => readHandle index
  | .methodType => named .methodType <$> Codec.uint16.read
  | .dynamic => readTwo (dynamic .constant)
  | .invokeDynamic => readTwo (dynamic .callSite)
  | .moduleRef => named .moduleName <$> Codec.uint16.read
  | .packageRef => named .packageName <$> Codec.uint16.read

/-- Inside a pool, running out of input is a defect of the entry being read. -/
def blame (index : PoolIndex) : ParseError → ParseError
  | .truncated _ _ _ => .malformedPool index .truncated
  | other => other

/-- Read the entry that will be stored at `index`. -/
def read (index : PoolIndex) : Reader Constant :=
  Reader.mapError (blame index) do
    let tag ← Codec.uint8.read
    match ConstantKind.ofTag? tag with
    | some kind => readPayload index kind
    | none => fail index (.unknownTag tag)

end Constant

end ClassDelta
