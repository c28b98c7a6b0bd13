import ClassDelta.Bytes.BigEndian
import ClassDelta.Zip.Error

/-!
# Reading zip records

The records of a zip archive consist of numbers with their least significant
byte first, and of bytes whose number is given in front.  A `RecordReader` reads
them from the front of a byte list; records may stand anywhere in a file, so a
reader is started on the bytes behind an offset.
-/

namespace ClassDelta

/-- Reading from the front of a byte list. -/
abbrev RecordReader := StateT Bytes (Except ZipError)

namespace RecordReader

/-- The next bytes. -/
def take (count : Nat) : RecordReader Bytes := fun bytes =>
  let taken := bytes.take count
  if taken.length = count then .ok (taken, bytes.drop count) else .error .endOfFile

/-- The number in the next bytes, the least significant one first. -/
def number (width : Nat) : RecordReader Nat := do
  return BigEndian.decode (← take width).reverse

/-- The number in the next two bytes. -/
def short : RecordReader Nat := number 2

/-- The number in the next four bytes. -/
def word : RecordReader Nat := number 4

/-- The number in the next eight bytes. -/
def long : RecordReader Nat := number 8

/-- Check the four bytes that tell what kind of record follows. -/
def expect (signature : Nat) (otherwise : ZipError) : RecordReader Unit := do
  if (← word) = signature then return () else throw otherwise

/-- Offsets from here on are in no file. -/
def offsetLimit : Nat := 0x8000000000000000

/-- Read a record that starts at an offset of a file. -/
def readAt {α : Type} (reader : RecordReader α) (file : Bytes) (offset : Nat) :
    Except ZipError (α × Bytes) :=
  if offset < offsetLimit then reader.run (file.drop offset) else .error .unreachableOffset

end RecordReader

end ClassDelta
