import ClassDelta.Archive.Source
import ClassDelta.Comparison.Events

/-!
# Comparing two sources

Both sources are read before any class is compared.  A source that cannot be
read ends the comparison, and a class that cannot be read becomes an entry of
the report.
-/

namespace ClassDelta.Comparison

/-- Read two sources and compare their classes. -/
def ofSources {π : Type} [PathPattern π] (settings : Settings) (filter : EntryFilter π)
    (old new : ClassSource) : Journaled ArchiveError Report := do
  let oldClasses ← old.read filter
  let newClasses ← new.read filter
  let counted (classes : List NamedClass) (source : ClassSource) :=
    classes.length.repr ++ " classes in " ++ source.description
  Journaled.tell [⟨.info,
    "Comparing " ++ counted oldClasses old ++ " with " ++ counted newClasses new⟩]
  Journaled.tell (events settings oldClasses newClasses)
  return report settings oldClasses newClasses

end ClassDelta.Comparison
