import ClassDelta.Zip.EntryName
import ClassDelta.Zip.Record

/-!
# Entries of a zip directory

`ZipEntry.reader` reads the record that the directory of an archive has for an
entry.  A record ends with fields of different kinds, of which two matter: one
holds the numbers that are too large for the record itself, and one describes
how the entry is encrypted.
-/

namespace ClassDelta

/-- How the contents of an entry are stored. -/
inductive ZipMethod
  | stored
  | deflated
  /-- A field of the entry says how the contents are encrypted. -/
  | encrypted
  | other
deriving DecidableEq

namespace ZipMethod

def ofCode : Nat → ZipMethod
  | 0 => stored
  | 8 => deflated
  | 99 => encrypted
  | _ => other

end ZipMethod

/-- An entry as the directory lists it. -/
structure ZipEntry where
  name : String
  needsPassword : Bool
  method : ZipMethod
  checksum : Nat
  packedSize : Nat
  unpackedSize : Nat
  /-- Where the entry's own header is. -/
  headerOffset : Nat
  /-- A field describes how the entry is encrypted. -/
  describesEncryption : Bool
deriving DecidableEq

/-! ## Fields behind a record -/

/-- An entry, and the bytes of the fields that are still to be read. -/
structure EntryFields where
  entry : ZipEntry
  rest : Bytes

/-- Reading fields, each of which may change the entry. -/
abbrev FieldReader := EStateM ZipError EntryFields

namespace FieldReader

/-- Read a part of a field. -/
def part {α : Type} (reader : RecordReader α) : FieldReader α := fun fields =>
  match reader.run fields.rest with
  | .ok (value, rest) => .ok value { fields with rest }
  | .error error => .error error fields

def modifyEntry (change : ZipEntry → ZipEntry) : FieldReader Unit :=
  modify fun fields => { fields with entry := change fields.entry }

/-- The number that stands in a record for one that is too large for it. -/
def tooLarge : Nat := 0xFFFFFFFF

/-- Replace a number that was too large for the record by the next one in the
field.  The result is the number of bytes that were read. -/
def largeNumber (get : ZipEntry → Nat) (set : Nat → ZipEntry → ZipEntry) :
    FieldReader Nat := do
  let fields ← MonadState.get
  if get fields.entry = tooLarge then
    let value ← part RecordReader.long
    modifyEntry (set value)
    return 8
  else return 0

/-- The field with numbers that are too large for the record. -/
def largeNumbers : FieldReader Nat := do
  let unpacked ← largeNumber ZipEntry.unpackedSize
    fun unpackedSize entry => { entry with unpackedSize }
  let packed ← largeNumber ZipEntry.packedSize fun packedSize entry => { entry with packedSize }
  let offset ← largeNumber ZipEntry.headerOffset
    fun headerOffset entry => { entry with headerOffset }
  return unpacked + packed + offset

/-- The field that describes an encryption, and how the contents are stored
below it. -/
def encryption (length : Nat) : FieldReader Unit := do
  if length != 7 then throw (.unsupported .encryptionFieldLength)
  let version ← part RecordReader.short
  let vendor ← part RecordReader.short
  let strength ← part (RecordReader.number 1)
  let method ← part RecordReader.short
  if vendor != 0x4541 then throw (.invalid .encryptionVendor)
  if version != 1 && version != 2 then throw (.invalid .encryptionVersion)
  if strength = 0 || 3 < strength then throw (.invalid .encryptionStrength)
  modifyEntry fun entry =>
    { entry with method := .ofCode method, describesEncryption := true }

/-- The contents of a field of some kind.  The description of an encryption does
not count as read, so as many bytes again are skipped behind it. -/
def contents (kind length : Nat) : FieldReader Unit := do
  let read ←
    if kind = 0x0001 then largeNumbers
    else if kind = 0x9901 then
      encryption length
      pure 0
    else pure 0
  modify fun fields => { fields with rest := fields.rest.drop (length - read) }

/-- Fields up to the end of the bytes.  Every field takes some bytes, so their
number is enough fuel. -/
def all : (fuel : Nat) → FieldReader Unit
  | 0 => pure ()
  | fuel + 1 => do
    let fields ← get
    if fields.rest.isEmpty then return ()
    let kind ← part RecordReader.short
    let length ← part RecordReader.short
    contents kind length
    all fuel

/-- The entry as its fields change it.  The last field may be cut off. -/
def apply (entry : ZipEntry) (bytes : Bytes) : Except ZipError ZipEntry :=
  match all bytes.length ⟨entry, bytes⟩ with
  | .ok _ fields => .ok fields.entry
  | .error .endOfFile fields => .ok fields.entry
  | .error error _ => .error error

end FieldReader

/-! ## Records -/

namespace ZipEntry

def signature : Nat := 0x02014B50

/-- Offsets in an archive with `shift` bytes in front of it are that much
larger. -/
def shifted (shift : Nat) (entry : ZipEntry) : Except ZipError ZipEntry :=
  let headerOffset := entry.headerOffset + shift
  if headerOffset < UInt64.size then .ok { entry with headerOffset }
  else .error (.invalid .headerOffset)

/-- The record of an entry in the directory. -/
def reader (shift : Nat) : RecordReader ZipEntry := do
  RecordReader.expect signature (.invalid .directoryHeader)
  let _versions ← RecordReader.word
  let flags ← RecordReader.short
  let method ← RecordReader.short
  let _modified ← RecordReader.word
  let checksum ← RecordReader.word
  let packedSize ← RecordReader.word
  let unpackedSize ← RecordReader.word
  let nameLength ← RecordReader.short
  let fieldsLength ← RecordReader.short
  let commentLength ← RecordReader.short
  let _diskAndAttributes ← RecordReader.take 8
  let headerOffset ← RecordReader.word
  let name ← RecordReader.take nameLength
  let fields ← RecordReader.take fieldsLength
  let _comment ← RecordReader.take commentLength
  let entry : ZipEntry :=
    { name := EntryName.decode (flags.testBit 11) name
      needsPassword := flags.testBit 0
      method := .ofCode method
      checksum, packedSize, unpackedSize, headerOffset
      describesEncryption := false }
  let entry ← FieldReader.apply entry fields
  if entry.method = .encrypted && !entry.describesEncryption then
    throw (.invalid .undescribedEncryption)
  entry.shifted shift

/-- Directories have entries of their own, with names that end in a slash of
either kind. -/
def isDirectory (entry : ZipEntry) : Bool :=
  entry.name.endsWith "/" || entry.name.endsWith "\\"

end ZipEntry

end ClassDelta
