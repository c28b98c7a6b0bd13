import ClassDelta.Zip.Crc32
import ClassDelta.Zip.DirectoryEnd
import ClassDelta.Zip.Entry
import ClassDelta.Zip.Inflate

/-!
# Zip archives

`ZipArchive.entries` lists the entries of an archive.  `ZipEntry.packed` finds
the contents of an entry behind the entry's own header, and `ZipEntry.unpack`
restores them and compares their checksum.  Contents are stored as they are or
deflated, and must not be encrypted.
-/

namespace ClassDelta

/-- What is wrong with the contents of an entry. -/
inductive ContentsDefect
  /-- The data ends before the contents do. -/
  | incompleteData
  | corruptData
  | checksumMismatch
deriving DecidableEq

namespace ContentsDefect

def message : ContentsDefect → String
  | incompleteData => "incomplete deflate stream"
  | corruptData => "corrupt deflate stream"
  | checksumMismatch => "Invalid checksum"

/-- The defect that stops reading deflated data. -/
def ofStop : Inflate.Stop → ContentsDefect
  | .endOfInput => incompleteData
  | .corrupt => corruptData

end ContentsDefect

namespace ZipArchive

/-- `count` records in a row, behind those read before (last one first). -/
def directory (shift : Nat) : (count : Nat) → List ZipEntry → RecordReader (List ZipEntry)
  | 0, before => pure before.reverse
  | count + 1, before => do
    let entry ← ZipEntry.reader shift
    directory shift count (entry :: before)

/-- The entries of an archive, in the order of its directory. -/
def entries (file : Bytes) : Except ZipError (List ZipEntry) := do
  let location ← DirectoryEnd.locate file
  if RecordReader.offsetLimit ≤ location.start then throw (.invalid .directoryStart)
  let (entries, _) ← (directory location.shift location.entryCount []).readAt file location.start
  return entries

end ZipArchive

namespace ZipEntry

def ownSignature : Nat := 0x04034B50

/-- The header that stands in front of the contents.  It repeats the record of
the directory, so only its length matters. -/
def ownHeader : RecordReader Unit := do
  RecordReader.expect ownSignature (.invalid .localHeader)
  let _repeated ← RecordReader.take 22
  let nameLength ← RecordReader.short
  let fieldsLength ← RecordReader.short
  modify fun rest => rest.drop (nameLength + fieldsLength)

/-- The contents as they are stored, which may be cut off by the end of the
file. -/
def packed (file : Bytes) (entry : ZipEntry) : Except ZipError Bytes := do
  if entry.needsPassword then throw (.unsupported .encryption)
  let (_, contents) ← ownHeader.readAt file entry.headerOffset
  if entry.method != .stored && entry.method != .deflated then
    throw (.unsupported .compressionMethod)
  if entry.describesEncryption then throw (.unsupported .encryption)
  return contents.take entry.packedSize

/-- The contents as they were before they were stored. -/
def unpack (entry : ZipEntry) (packed : Bytes) : Except ContentsDefect Bytes := do
  let contents ←
    if entry.method = .deflated then (Inflate.inflate packed).mapError .ofStop
    else pure packed
  if (Crc32.checksum contents).toNat = entry.checksum then return contents
  else throw .checksumMismatch

end ZipEntry

end ClassDelta
