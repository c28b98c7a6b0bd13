import ClassDelta.Version

/-!
# Settings of a comparison

`Settings.check` says whether anything can be compared at all with given
settings, and if not, why.
-/

namespace ClassDelta

/-- How two sets of classes are compared. -/
structure Settings where
  /-- List changes to what compilers insert, too. -/
  includeSynthetics : Bool
  /-- How many classes may be compared at the same time. -/
  parallelism : Nat
  /-- The class file versions that are read; other files fail. -/
  supported : VersionRange
deriving DecidableEq

/-- The reasons settings cannot be used. -/
inductive SettingsDefect
  | zeroParallelism
  | emptyVersionRange (range : VersionRange)
deriving DecidableEq

namespace SettingsDefect

def message : SettingsDefect → String
  | zeroParallelism => "invalid settings: parallelism must be at least 1"
  | emptyVersionRange range =>
    "invalid settings: supported major version range " ++ range.text ++ " is empty"

end SettingsDefect

namespace Settings

/-- Some worker can run, and some version can be read. -/
def check (settings : Settings) : Except SettingsDefect Unit :=
  if settings.parallelism = 0 then .error .zeroParallelism
  else if settings.supported.isEmpty then .error (.emptyVersionRange settings.supported)
  else .ok ()

end Settings

end ClassDelta
