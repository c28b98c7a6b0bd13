import ClassDelta.Zip.Record

/-!
# The end of a zip archive

An archive is read from its end: a record there says where the directory of its
entries is.  Archives that are too large for that record have a larger one in
front of it, with a locator between the two.

Anything may stand in front of an archive.  All offsets in it then fall short by
the same amount, which is found by comparing where the record says that the
directory ends with where the record is.
-/

namespace ClassDelta.DirectoryEnd

/-- Where the directory is. -/
structure Location where
  /-- How much is in front of the archive. -/
  shift : Nat
  start : Nat
  entryCount : Nat
deriving DecidableEq

/-- The record at the end of every archive. -/
structure SmallEnd where
  disk : Nat
  directoryDisk : Nat
  diskEntryCount : Nat
  entryCount : Nat
  directorySize : Nat
  directoryOffset : Nat
  comment : Bytes
deriving DecidableEq

namespace SmallEnd

def signature : Nat := 0x06054B50

/-- The length of the record without its comment. -/
def size : Nat := 22

/-- Some number did not fit and is in the larger record instead. -/
def isTooSmall (record : SmallEnd) : Bool :=
  record.disk == 0xFFFF || record.directoryDisk == 0xFFFF || record.diskEntryCount == 0xFFFF ||
    record.entryCount == 0xFFFF || record.directorySize == 0xFFFFFFFF ||
    record.directoryOffset == 0xFFFFFFFF

def reader : RecordReader SmallEnd := do
  RecordReader.expect signature (.invalid .noDirectoryEnd)
  let disk ← RecordReader.short
  let directoryDisk ← RecordReader.short
  let diskEntryCount ← RecordReader.short
  let entryCount ← RecordReader.short
  let directorySize ← RecordReader.word
  let directoryOffset ← RecordReader.word
  let comment ← RecordReader.take (← RecordReader.short)
  return { disk, directoryDisk, diskEntryCount, entryCount, directorySize, directoryOffset,
           comment }

end SmallEnd

/-- What points from the small record to the large one. -/
structure Locator where
  directoryDisk : Nat
  offset : Nat

namespace Locator

def signature : Nat := 0x07064B50

/-- The length of the record. -/
def size : Nat := 20

def reader : RecordReader Locator := do
  RecordReader.expect signature (.invalid .noLargeEnd)
  let directoryDisk ← RecordReader.word
  let offset ← RecordReader.long
  let _diskCount ← RecordReader.word
  return ⟨directoryDisk, offset⟩

end Locator

/-- The record in front of the small one in large archives. -/
structure LargeEnd where
  disk : Nat
  directoryDisk : Nat
  entryCount : Nat
  directoryOffset : Nat

namespace LargeEnd

def signature : Nat := 0x06064B50

/-- The large record, its locator and the small one are at least this far apart. -/
def distance : Nat := 60

def reader : RecordReader LargeEnd := do
  RecordReader.expect signature (.invalid .noLargeEnd)
  let _size ← RecordReader.long
  let _versions ← RecordReader.word
  let disk ← RecordReader.word
  let directoryDisk ← RecordReader.word
  let _diskEntryCount ← RecordReader.long
  let entryCount ← RecordReader.long
  let _directorySize ← RecordReader.long
  let directoryOffset ← RecordReader.long
  return ⟨disk, directoryDisk, entryCount, directoryOffset⟩

end LargeEnd

/-! ## Finding the records -/

/-- The bytes start with a signature. -/
def startsWith (signature : Nat) (bytes : Bytes) : Bool :=
  match (RecordReader.word.run bytes) with
  | .ok (found, _) => found == signature
  | .error _ => false

/-- The last offset in `[lowest, highest]` with the signature of the small
record, given the one found before `offset`. -/
def lastSignature (lowest highest : Nat) (found : Option Nat) (offset : Nat) :
    Bytes → Option Nat
  | [] => found
  | byte :: rest =>
    if highest < offset then found
    else
      let here := lowest ≤ offset && startsWith SmallEnd.signature (byte :: rest)
      lastSignature lowest highest (if here then some offset else found) (offset + 1) rest

/-- The offset of the small record, behind which there is nothing but its
comment. -/
def findSmallEnd (file : Bytes) : Except ZipError Nat :=
  let length := file.length
  if length < SmallEnd.size then .error (.invalid .tooShort)
  else
    let lowest := length - (SmallEnd.size + 0xFFFF)
    match lastSignature lowest (length - SmallEnd.size) none 0 file with
    | some offset => .ok offset
    | none => .error (.invalid .noDirectoryEnd)

/-- The first offset with the signature of the large record, among `count` from
`offset` on. -/
def firstSignature (offset : Nat) : (count : Nat) → Bytes → Option Nat
  | 0, _ => none
  | _ + 1, [] => none
  | count + 1, byte :: rest =>
    if startsWith LargeEnd.signature (byte :: rest) then some offset
    else firstSignature (offset + 1) count rest

/-- The locator, if there is one in front of the small record. -/
def findLocator (file : Bytes) (smallEnd : SmallEnd) : Option Locator :=
  let distance := Locator.size + SmallEnd.size + smallEnd.comment.length
  if file.length < distance then none
  else
    match Locator.reader.run (file.drop (file.length - distance)) with
    | .ok (locator, _) => some locator
    | .error _ => none

/-- The directory, as the small record describes it. -/
def locateSmall (offset : Nat) (smallEnd : SmallEnd) : Except ZipError Location :=
  let directoryEnd := smallEnd.directorySize + smallEnd.directoryOffset
  if offset < directoryEnd then .error (.invalid .directoryBounds)
  else
    let shift := offset - directoryEnd
    .ok ⟨shift, smallEnd.directoryOffset + shift, smallEnd.diskEntryCount⟩

/-- The directory, as the large record describes it. -/
def locateLarge (file : Bytes) (offset : Nat) (smallEnd : SmallEnd) (locator : Locator) :
    Except ZipError Location := do
  if !smallEnd.isTooSmall && smallEnd.disk != locator.directoryDisk then
    throw (.unsupported .severalDisks)
  if offset < LargeEnd.distance then throw (.invalid .noLargeEndRoom)
  let highest := offset - LargeEnd.distance
  if highest < locator.offset then throw (.invalid .noLargeEnd)
  match firstSignature locator.offset (highest + 1 - locator.offset)
      (file.drop locator.offset) with
  | none => throw (.invalid .noLargeEnd)
  | some found =>
    let (largeEnd, _) ← LargeEnd.reader.readAt file found
    if largeEnd.disk != largeEnd.directoryDisk then throw (.unsupported .severalDisks)
    let shift := found - locator.offset
    let start := largeEnd.directoryOffset + shift
    if UInt64.size ≤ start then throw (.invalid .directoryBounds)
    return ⟨shift, start, largeEnd.entryCount⟩

/-- Where the directory of an archive is. -/
def locate (file : Bytes) : Except ZipError Location := do
  let offset ← findSmallEnd file
  let (smallEnd, _) ← SmallEnd.reader.readAt file offset
  if !smallEnd.isTooSmall && smallEnd.disk != smallEnd.directoryDisk then
    throw (.unsupported .severalDisks)
  match findLocator file smallEnd with
  | none => locateSmall offset smallEnd
  | some locator => locateLarge file offset smallEnd locator

end ClassDelta.DirectoryEnd
