/-!
# Kinds of constant pool entries

Every entry of a constant pool starts with a one-byte tag that says which kind
of entry follows.  `ConstantKind.tag` and `ConstantKind.ofTag?` are inverse to
each other.
-/

namespace ClassDelta

/-- An index into a constant pool.  Index 0 never holds an entry and stands for
an absent reference. -/
abbrev PoolIndex := UInt16

/-- The kinds of constant pool entries. -/
inductive ConstantKind
  | utf8
  | integer
  | float
  | long
  | double
  | classRef
  | string
  | fieldRef
  | methodRef
  | interfaceMethodRef
  | nameAndType
  | methodHandle
  | methodType
  | dynamic
  | invokeDynamic
  | moduleRef
  | packageRef
deriving DecidableEq

namespace ConstantKind

/-- The tag byte in front of an entry. -/
def tag : ConstantKind → UInt8
  | utf8 => 1
  | integer => 3
  | float => 4
  | long => 5
  | double => 6
  | classRef => 7
  | string => 8
  | fieldRef => 9
  | methodRef => 10
  | interfaceMethodRef => 11
  | nameAndType => 12
  | methodHandle => 15
  | methodType => 16
  | dynamic => 17
  | invokeDynamic => 18
  | moduleRef => 19
  | packageRef => 20

/-- The kind a tag byte announces; tags 2, 13, 14 and everything above 20 are
unassigned. -/
def ofTag? (tag : UInt8) : Option ConstantKind :=
  match tag.toNat with
  | 1 => some utf8
  | 3 => some integer
  | 4 => some float
  | 5 => some long
  | 6 => some double
  | 7 => some classRef
  | 8 => some string
  | 9 => some fieldRef
  | 10 => some methodRef
  | 11 => some interfaceMethodRef
  | 12 => some nameAndType
  | 15 => some methodHandle
  | 16 => some methodType
  | 17 => some dynamic
  | 18 => some invokeDynamic
  | 19 => some moduleRef
  | 20 => some packageRef
  | _ => none

/-- The name the class file specification gives the kind. -/
def name : ConstantKind → String
  | utf8 => "Utf8"
  | integer => "Integer"
  | float => "Float"
  | long => "Long"
  | double => "Double"
  | classRef => "Class"
  | string => "String"
  | fieldRef => "Fieldref"
  | methodRef => "Methodref"
  | interfaceMethodRef => "InterfaceMethodref"
  | nameAndType => "NameAndType"
  | methodHandle => "MethodHandle"
  | methodType => "MethodType"
  | dynamic => "Dynamic"
  | invokeDynamic => "InvokeDynamic"
  | moduleRef => "Module"
  | packageRef => "Package"

@[simp] theorem ofTag?_tag (kind : ConstantKind) : ofTag? kind.tag = some kind := by
  cases kind <;> rfl

end ConstantKind

end ClassDelta
