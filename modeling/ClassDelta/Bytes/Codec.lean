import ClassDelta.Bytes.Reader

/-!
# Codecs

A `Codec` pairs the written form of a type with its reader.  The formats in a
class file are built from a few of them: fixed-width numbers, one value after
the other (`Codec.pair`), another view of the same bytes (`Codec.via`), and
lists behind a 16-bit count (`Codec.counted`).

Each codec also names a size that no written value falls below.  A counted list
uses it to turn down a count that cannot fit before it reads any element.
-/

namespace ClassDelta

/-- How values of a type are written and read. -/
structure Codec (α : Type) where
  /-- No written value is shorter than this. -/
  minSize : Nat
  write : α → Bytes
  read : Reader α

namespace Codec

variable {α β : Type}

/-! ## Numbers -/

/-- An unsigned number of a fixed width, in bytes. -/
def number (width : Nat) : Codec Nat where
  minSize := width
  write := BigEndian.encode width
  read := Reader.number width

/-! ## Combinators -/

/-- Another type with the same written form. -/
def via (codec : Codec α) (view : β → α) (of : α → β) : Codec β where
  minSize := codec.minSize
  write value := codec.write (view value)
  read := of <$> codec.read

/-- One value after the other. -/
def pair (first : Codec α) (second : Codec β) : Codec (α × β) where
  minSize := first.minSize + second.minSize
  write value := first.write value.1 ++ second.write value.2
  read := do
    let left ← first.read
    let right ← second.read
    return (left, right)

/-- A value that takes no space. -/
def unit : Codec Unit where
  minSize := 0
  write _ := []
  read := pure ()

/-! ## Machine words -/

def uint8 : Codec UInt8 := (number 1).via UInt8.toNat UInt8.ofNat

def uint16 : Codec UInt16 := (number 2).via UInt16.toNat UInt16.ofNat

def uint32 : Codec UInt32 := (number 4).via UInt32.toNat UInt32.ofNat

def uint64 : Codec UInt64 := (number 8).via UInt64.toNat UInt64.ofNat

/-- Signed numbers are written in two's complement. -/
def int32 : Codec Int32 := uint32.via Int32.toUInt32 UInt32.toInt32

@[inherit_doc int32]
def int64 : Codec Int64 := uint64.via Int64.toUInt64 UInt64.toInt64

/-! ## Lists -/

/-- A list behind its length, which is written modulo `2 ^ 16`. -/
def counted (codec : Codec α) : Codec (List α) where
  minSize := uint16.minSize
  write values := uint16.write (UInt16.ofNat values.length) ++ values.flatMap codec.write
  read := do
    let count ← uint16.read
    Reader.expect count.toNat codec.minSize
    Reader.repeated codec.read count.toNat []

end Codec

/-- Files write the minor version in front of the major one. -/
def Version.codec : Codec Version :=
  (Codec.uint16.pair Codec.uint16).via
    (fun version => (version.minor, version.major)) (fun (minor, major) => ⟨major, minor⟩)

end ClassDelta
