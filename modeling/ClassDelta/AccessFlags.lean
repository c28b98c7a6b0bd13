import ClassDelta.Bytes.Codec

/-!
# Access flags

Classes, fields, methods and inner class entries each have a 16-bit word of
flags, and each of them defines some of the bits.  `Flags scope` is such a word
with only defined bits in it; reading one drops the others, which mean nothing.

The flags of classes, fields and methods have names.  A table lists them in the
order in which they are shown, apart from the list of the bits that are defined.
-/

namespace ClassDelta

/-- What a word of flags belongs to. -/
inductive FlagScope
  | ofClass
  | ofField
  | ofMethod
  | ofInnerClass
deriving DecidableEq

namespace AccessBit

def interface : UInt16 := 0x0200
def synthetic : UInt16 := 0x1000
def annotationType : UInt16 := 0x2000
def enumeration : UInt16 := 0x4000

/-- On methods, the bit that fields use for `volatile`. -/
def bridge : UInt16 := 0x0040

end AccessBit

namespace FlagScope

/-- The bits that are defined in a scope, in ascending order. -/
def bits : FlagScope → List UInt16
  | ofClass =>
    [0x0001, 0x0010, 0x0020, AccessBit.interface, 0x0400, AccessBit.synthetic,
      AccessBit.annotationType, AccessBit.enumeration, 0x8000]
  | ofField =>
    [0x0001, 0x0002, 0x0004, 0x0008, 0x0010, 0x0040, 0x0080, AccessBit.synthetic,
      AccessBit.enumeration]
  | ofMethod =>
    [0x0001, 0x0002, 0x0004, 0x0008, 0x0010, 0x0020, AccessBit.bridge, 0x0080, 0x0100, 0x0400,
      0x0800, AccessBit.synthetic]
  | ofInnerClass =>
    [0x0001, 0x0002, 0x0004, 0x0008, 0x0010, AccessBit.interface, 0x0400, AccessBit.synthetic,
      AccessBit.annotationType, AccessBit.enumeration]

/-- All bits that are defined in a scope. -/
def mask (scope : FlagScope) : UInt16 := scope.bits.foldl (· ||| ·) 0

/-- The names of flags, in the order in which they are shown.  Those of inner
class entries are never shown. -/
def table : FlagScope → List (UInt16 × String)
  | ofClass =>
    [(0x0001, "public"), (0x0400, "abstract"), (0x0010, "final"),
      (AccessBit.interface, "interface"), (AccessBit.annotationType, "annotation"),
      (AccessBit.enumeration, "enum"), (0x8000, "module"), (0x0020, "super"),
      (AccessBit.synthetic, "synthetic")]
  | ofField =>
    [(0x0001, "public"), (0x0002, "private"), (0x0004, "protected"), (0x0008, "static"),
      (0x0010, "final"), (0x0080, "transient"), (0x0040, "volatile"),
      (AccessBit.enumeration, "enum"), (AccessBit.synthetic, "synthetic")]
  | ofMethod =>
    [(0x0001, "public"), (0x0002, "private"), (0x0004, "protected"), (0x0008, "static"),
      (0x0010, "final"), (0x0020, "synchronized"), (0x0100, "native"), (0x0400, "abstract"),
      (0x0800, "strictfp"), (0x0080, "varargs"), (AccessBit.bridge, "bridge"),
      (AccessBit.synthetic, "synthetic")]
  | ofInnerClass => []

end FlagScope

/-- A set of flags that are defined in a scope. -/
structure Flags (scope : FlagScope) where
  bits : UInt16
  defined : bits &&& scope.mask = bits
deriving DecidableEq

namespace Flags

variable {scope : FlagScope}

/-- The defined flags among the bits of a word. -/
def ofBits (word : UInt16) : Flags scope :=
  ⟨word &&& scope.mask, by rw [UInt16.and_assoc, UInt16.and_self]⟩

/-- Is the flag with this bit set? -/
def has (flags : Flags scope) (bit : UInt16) : Bool := flags.bits &&& bit != 0

/-- The names of the flags that are set. -/
def names (flags : Flags scope) : List String :=
  (scope.table.filter fun flag => flags.has flag.1).map Prod.snd

/-- The flag names that are keywords of source code. -/
def keywords : List String :=
  ["public", "private", "protected", "static", "final", "synchronized", "native", "abstract",
    "strictfp", "transient", "volatile"]

/-- The names of the flags that source code spells as modifiers. -/
def modifiers (flags : Flags scope) : List String :=
  flags.names.filter keywords.contains

/-- Words are read with their undefined bits dropped. -/
def codec (scope : FlagScope) : Codec (Flags scope) := Codec.uint16.via bits ofBits

end Flags

end ClassDelta
