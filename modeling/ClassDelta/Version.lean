/-!
# Class file versions

A class file declares a major and a minor version.  A reader accepts an
inclusive range of major versions and looks at nothing else of a file outside
of it.

* `Version` is the declared version, `Version.text` its written form.
* `VersionRange` is the range of readable major versions.
-/

namespace ClassDelta

/-- The version a class file declares. -/
structure Version where
  major : UInt16
  minor : UInt16
deriving DecidableEq

namespace Version

/-- The Java release that introduced the major version.  Major versions run 44
ahead of the releases, and everything up to 45 counts as release 1 or 0. -/
def javaRelease (version : Version) : Nat :=
  version.major.toNat - 44

/-- The version as messages show it, as in `52.0 (Java 8)`. -/
def text (version : Version) : String :=
  version.major.toNat.repr ++ "." ++ version.minor.toNat.repr ++
    " (Java " ++ version.javaRelease.repr ++ ")"

/-- Versions are ordered by major version, then by minor version. -/
def order (left right : Version) : Ordering :=
  (compare left.major right.major).then (compare left.minor right.minor)

end Version

/-- An inclusive range of major versions. -/
structure VersionRange where
  oldest : UInt16
  newest : UInt16
deriving DecidableEq

namespace VersionRange

/-- Every release from JDK 1.1 to Java 25. -/
def everyRelease : VersionRange := ⟨45, 69⟩

/-- Only the major version decides whether a file can be read. -/
def contains (range : VersionRange) (version : Version) : Bool :=
  range.oldest ≤ version.major && version.major ≤ range.newest

/-- No major version lies in the range. -/
def isEmpty (range : VersionRange) : Bool :=
  range.newest < range.oldest

/-- The range as messages show it, as in `45..=69`. -/
def text (range : VersionRange) : String :=
  range.oldest.toNat.repr ++ "..=" ++ range.newest.toNat.repr

end VersionRange

end ClassDelta
