import ClassDelta.Version
import ClassDelta.Pool.Kind

/-!
# Reasons a class file cannot be read

Each reason is a constructor that carries what was found; the wording of all of
them is in the `message` functions.  A parse error concerns one class file and
nothing else.
-/

namespace ClassDelta

/-- What is wrong with a constant pool. -/
inductive PoolDefect
  /-- Even an empty pool declares one slot. -/
  | emptyPool
  | unknownTag (tag : UInt8)
  /-- The pool runs past the end of the input. -/
  | truncated
  /-- A two-slot entry starts on the last slot of the pool. -/
  | wideEntryOverflow
  /-- An entry refers to index 0, past the end, or to a two-slot entry's second slot. -/
  | indexOutOfRange (index : PoolIndex)
  /-- The bytes of a text are not modified UTF-8. -/
  | invalidText
  /-- Method handle kinds run from 1 to 9. -/
  | invalidHandleKind (kind : UInt8)
deriving DecidableEq

/-- What is wrong with the parts of a class file around its constant pool. -/
inductive StructureDefect
  | badMagic (magic : UInt32)
  | trailingBytes (count : Nat)
  | duplicateMember (name descriptor : String)
  | badAttributeLength (name : String) (length : Nat)
deriving DecidableEq

/-- What a reference into the constant pool was meant to find. -/
inductive Wanted
  | text
  | className
  | nameAndType
  /-- A constant that can initialise a field. -/
  | literal
deriving DecidableEq

/-- The reasons a class file cannot be read. -/
inductive ParseError
  /-- The index is the entry at fault, or 0 when the defect concerns the whole pool. -/
  | malformedPool (index : PoolIndex) (defect : PoolDefect)
  | malformedClass (defect : StructureDefect)
  | unsupportedVersion (version : Version) (supported : VersionRange)
  /-- A declared count or length needs more bytes than are left. -/
  | truncated (offset needed available : Nat)
  /-- A reference leads to an entry of another kind, or to no entry at all. -/
  | unresolved (index : PoolIndex) (wanted : Wanted) (found : Option ConstantKind)
deriving DecidableEq

/-! ## Wording -/

/-- The number in upper-case hexadecimal, padded with zeros to `width` digits. -/
def upperHex (width : Nat) (number : Nat) : String :=
  let digits := (Nat.toDigits 16 number).map Char.toUpper
  String.ofList (List.replicate (width - digits.length) '0' ++ digits)

namespace PoolDefect

def message : PoolDefect → String
  | emptyPool => "declared entry count is zero"
  | unknownTag tag => "unknown tag " ++ tag.toNat.repr
  | truncated => "pool extends past the end of input"
  | wideEntryOverflow => "two-slot entry does not fit in the declared count"
  | indexOutOfRange index => "reference to unusable index #" ++ index.toNat.repr
  | invalidText => "invalid modified UTF-8"
  | invalidHandleKind kind => "invalid method handle kind " ++ kind.toNat.repr

end PoolDefect

namespace StructureDefect

def message : StructureDefect → String
  | badMagic magic => "bad magic 0x" ++ upperHex 8 magic.toNat
  | trailingBytes count => count.repr ++ " unexpected bytes after the class attributes"
  | duplicateMember name descriptor => "duplicate member " ++ name ++ descriptor
  | badAttributeLength name length =>
    "attribute " ++ name ++ " has unexpected length " ++ length.repr

end StructureDefect

namespace Wanted

def name : Wanted → String
  | text => "Utf8"
  | className => "Class"
  | nameAndType => "NameAndType"
  | literal => "Integer, Long, Float, Double or String"

end Wanted

namespace ParseError

/-- The error as reports and logs show it. -/
def message : ParseError → String
  | malformedPool index defect =>
    "malformed constant pool at #" ++ index.toNat.repr ++ ": " ++ defect.message
  | malformedClass defect => "malformed class file: " ++ defect.message
  | unsupportedVersion version supported =>
    "unsupported class version " ++ version.text ++
      " (supported major versions: " ++ supported.text ++ ")"
  | truncated offset needed available =>
    "truncated input at offset " ++ offset.repr ++ ": needed " ++ needed.repr ++
      " bytes but only " ++ available.repr ++ " remain"
  | unresolved index wanted (some found) =>
    "constant #" ++ index.toNat.repr ++ " is " ++ found.name ++ ", expected " ++ wanted.name
  | unresolved index wanted none =>
    "constant #" ++ index.toNat.repr ++ " does not exist, expected " ++ wanted.name

end ParseError

end ClassDelta
