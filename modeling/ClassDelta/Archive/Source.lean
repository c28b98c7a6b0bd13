import ClassDelta.Archive.Collector
import ClassDelta.Archive.FileTree
import ClassDelta.Zip.Archive

/-!
# Sources of class files

A `ClassSource` is a list of classes, an archive or a directory.
`ClassSource.read` lists its classes: an archive in the order of its entries, a
directory in the order of its paths, both through the same collector.
-/

namespace ClassDelta

/-- The reasons class files cannot be got from a source. -/
inductive ArchiveError
  | contents (defect : ContentsDefect)
  | archive (error : ZipError)
  | exclude (error : ExcludeError)
  | notFound (path : String)
deriving DecidableEq

namespace ArchiveError

def message : ArchiveError → String
  | contents defect => defect.message
  | archive error => "invalid archive: " ++ error.message
  | exclude error => error.message
  | notFound path => path ++ " does not exist"

end ArchiveError

/-- Where class files come from. -/
inductive ClassSource
  | memory (description : String) (classes : List NamedClass)
  | archive (path : String) (file : Bytes)
  | directory (path : String) (tree : FileTree)

namespace ClassSource

/-- The source at a path, where something may have been found.  Whatever is no
directory is opened as an archive. -/
def ofPath (path : String) (found : Option FileTree) : Except ArchiveError ClassSource :=
  match found with
  | none => .error (.notFound path)
  | some (.directory children) => .ok (.directory path (.directory children))
  | some (.file contents) | some (.special contents) => .ok (.archive path contents)

def description : ClassSource → String
  | memory description _ => description
  | archive path _ => path
  | directory path _ => path

/-! ## Collecting -/

/-- Collecting classes, until something cannot be read. -/
abbrev Collecting := EStateM ArchiveError Collector

variable {π : Type} [PathPattern π]

/-- Add the files of a directory in their order. -/
def addFiles (filter : EntryFilter π) (files : List FoundFile) : Collecting Unit :=
  files.forM fun found => Collector.add filter ("/".intercalate found.path) fun _ =>
    .ok found.contents

/-- Add an entry of an archive.  Its contents have to be found in any case, and
are unpacked when they are wanted. -/
def addEntry (filter : EntryFilter π) (file : Bytes) (entry : ZipEntry) : Collecting Unit :=
  match entry.packed file with
  | .error error => throw (.archive error)
  | .ok packed =>
    if entry.isDirectory then pure ()
    else Collector.add filter entry.name fun _ => (entry.unpack packed).mapError .contents

/-- Add the entries of an archive in their order. -/
def addEntries (filter : EntryFilter π) (file : Bytes) : Collecting Unit :=
  match ZipArchive.entries file with
  | .error error => throw (.archive error)
  | .ok entries => entries.forM (addEntry filter file)

/-! ## Reading -/

/-- Run a collection, and say how many classes it found. -/
def collect (path : String) (collecting : Collecting Unit) :
    Journaled ArchiveError (List NamedClass) := do
  match collecting Collector.fresh with
  | .error error collector =>
    Journaled.tell collector.events
    throw error
  | .ok () collector =>
    let count := collector.classes.length.repr
    Journaled.tell (collector.events ++ [⟨.debug, "Read " ++ count ++ " classes from " ++ path⟩])
    return collector.classes

/-- The classes of a source.  A filter is for paths, so a list of classes is
taken as it is. -/
def read (filter : EntryFilter π) : ClassSource → Journaled ArchiveError (List NamedClass)
  | memory _ classes => pure classes
  | archive path file => collect path (addEntries filter file)
  | directory path tree => collect path (addFiles filter tree.files)

end ClassSource

end ClassDelta
