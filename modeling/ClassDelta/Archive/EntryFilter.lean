import ClassDelta.Archive.Glob

/-!
# Which entries are class files

An `EntryFilter` tells class files from other entries by the extension of their
paths, and leaves out paths that fit an exclusion.  Extensions have an order,
with `class` always first; `EntryFilter.classify` gives the class name of a path
and the rank of the first extension that makes it one.

Exclusions are patterns of some kind (`PathPattern`), which are globs unless
another kind is given.
-/

namespace ClassDelta

/-- Patterns that texts spell and that paths may fit. -/
class PathPattern (π : Type) where
  parse : String → Except GlobError π
  accepts : π → String → Bool

instance : PathPattern Glob := ⟨Glob.parse, Glob.accepts⟩

/-- Which entries of an archive are class files worth comparing. -/
structure EntryFilter (π : Type := Glob) where
  /-- Paths that fit one of these are left out. -/
  excludes : List π
  /-- Extensions of class files, without a dot, the most important one first. -/
  extensions : List String

/-- A text that should have been a pattern. -/
structure ExcludeError where
  pattern : String
  error : GlobError
deriving DecidableEq

namespace ExcludeError

def message (error : ExcludeError) : String :=
  "invalid exclude pattern '" ++ error.pattern ++ "': " ++ error.error.message

end ExcludeError

namespace EntryFilter

variable {π : Type} [PathPattern π]

/-- Every path with the extension `class`. -/
def classFiles : EntryFilter π := ⟨[], ["class"]⟩

/-- Leave out the paths that fit a pattern. -/
def exclude (filter : EntryFilter π) (pattern : String) : Except ExcludeError (EntryFilter π) :=
  match PathPattern.parse pattern with
  | .ok parsed => .ok { filter with excludes := filter.excludes ++ [parsed] }
  | .error error => .error ⟨pattern, error⟩

/-- Take paths with another extension for class files, too.  Dots in front of
the extension do not count, and an empty or known extension adds nothing. -/
def withExtension (filter : EntryFilter π) (extension : String) : EntryFilter π :=
  let extension := String.ofList (extension.toList.dropWhile (· == '.'))
  if extension.isEmpty || filter.extensions.contains extension then filter
  else { filter with extensions := filter.extensions ++ [extension] }

/-- Leave out the paths that fit any of the patterns, the first wrong one of
which is an error. -/
def excludeAll (filter : EntryFilter π) (patterns : List String) :
    Except ExcludeError (EntryFilter π) :=
  patterns.foldlM exclude filter

def withExtensions (filter : EntryFilter π) (extensions : List String) : EntryFilter π :=
  extensions.foldl withExtension filter

/-- The path fits an exclusion. -/
def isExcluded (filter : EntryFilter π) (path : String) : Bool :=
  filter.excludes.any fun pattern => PathPattern.accepts pattern path

/-- What is in front of a dot and the extension, if it can be a class name. -/
def stem? (path extension : String) : Option String :=
  let chars := path.toList
  let ending := '.' :: extension.toList
  let stem := chars.take (chars.length - ending.length)
  if ending.isSuffixOf chars && !stem.isEmpty && stem.getLast? != some '/' then
    some (String.ofList stem)
  else none

/-- The first stem that the extensions give, with the rank of its extension. -/
def classifyFrom (path : String) (rank : Nat) : List String → Option (String × Nat)
  | [] => none
  | extension :: later =>
    match stem? path extension with
    | some stem => some (stem, rank)
    | none => classifyFrom path (rank + 1) later

/-- The class name of a path and the rank of its extension, unless the path is
left out or no class file. -/
def classify (filter : EntryFilter π) (path : String) : Option (String × Nat) :=
  if filter.isExcluded path then none else classifyFrom path 0 filter.extensions

end EntryFilter

end ClassDelta
