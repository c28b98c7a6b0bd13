/-!
# Reasons a zip archive cannot be read

Each reason is a constructor; the wording is in `ZipError.message`.
-/

namespace ClassDelta

/-- What is wrong with an archive. -/
inductive ZipDefect
  | tooShort
  | noDirectoryEnd
  | directoryBounds
  | directoryStart
  | directoryHeader
  | localHeader
  | headerOffset
  /-- The large form of the directory end has no room in front of the small one. -/
  | noLargeEndRoom
  | noLargeEnd
  | undescribedEncryption
  | encryptionVendor
  | encryptionVersion
  | encryptionStrength
deriving DecidableEq

/-- What an archive uses that is not supported. -/
inductive ZipFeature
  | severalDisks
  | encryption
  | compressionMethod
  | encryptionFieldLength
deriving DecidableEq

/-- The reasons an archive or one of its entries cannot be read. -/
inductive ZipError
  | invalid (defect : ZipDefect)
  | unsupported (feature : ZipFeature)
  /-- A record runs past the end of the file. -/
  | endOfFile
  /-- A record lies at an offset that no file has. -/
  | unreachableOffset
deriving DecidableEq

namespace ZipDefect

def message : ZipDefect → String
  | tooShort => "Invalid zip header"
  | noDirectoryEnd => "Could not find central directory end"
  | directoryBounds => "Invalid central directory size or offset"
  | directoryStart => "Could not seek to start of central directory"
  | directoryHeader => "Invalid Central Directory header"
  | localHeader => "Invalid local file header"
  | headerOffset => "Archive header is too large"
  | noLargeEndRoom => "File cannot contain ZIP64 central directory end"
  | noLargeEnd => "Could not find ZIP64 central directory end"
  | undescribedEncryption => "AES encryption without AES extra data field"
  | encryptionVendor => "Invalid AES vendor"
  | encryptionVersion => "Invalid AES vendor version"
  | encryptionStrength => "Invalid AES encryption strength"

end ZipDefect

namespace ZipFeature

def message : ZipFeature → String
  | severalDisks => "Support for multi-disk files is not implemented"
  | encryption => "Password required to decrypt file"
  | compressionMethod => "Compression method not supported"
  | encryptionFieldLength => "AES extra data field has an unsupported length"

end ZipFeature

namespace ZipError

def message : ZipError → String
  | invalid defect => "invalid Zip archive: " ++ defect.message
  | unsupported feature => "unsupported Zip archive: " ++ feature.message
  | endOfFile => "failed to fill whole buffer"
  | unreachableOffset => "Invalid argument (os error 22)"

end ZipError

end ClassDelta
