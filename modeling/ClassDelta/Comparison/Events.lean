import ClassDelta.Comparison.Basic

/-!
# Events of a comparison

What comparing two lists of classes has to say: classes that are ignored
because their name came before, constant pools that were read, classes that
could not be, and classes that were compared.
-/

namespace ClassDelta

namespace ClassFile

/-- A constant pool that was read is worth a message, even when the rest of the
file is not readable. -/
def poolEvents (supported : VersionRange) (bytes : Bytes) : List LogEvent :=
  match Reader.run (readPreamble supported) bytes with
  | .ok (_, pool) => [⟨.trace, "Read constant pool with " ++ pool.size.repr ++ " entries"⟩]
  | .error _ => []

end ClassFile

namespace Job

/-- The events of reading one side, and whether it could be read. -/
def sideEvents (settings : Settings) (name : String) (side : Side) (bytes : Bytes) :
    List LogEvent × Bool :=
  let pool := ClassFile.poolEvents settings.supported bytes
  match ClassInfo.parse settings.supported bytes with
  | .ok _ => (pool, true)
  | .error error =>
    let message := "Failed to parse " ++ side.text ++ " version of " ++ name ++ ": "
    (pool ++ [⟨.warn, message ++ error.message⟩], false)

/-- The events of a job.  The new side is not read when the old one cannot be. -/
def events (settings : Settings) (job : Job) : List LogEvent :=
  match job.old, job.new with
  | some old, some new =>
    let (oldEvents, oldRead) := sideEvents settings job.name .old old
    if oldRead then
      let (newEvents, newRead) := sideEvents settings job.name .new new
      let compared := ⟨.debug, "Comparing class " ++ job.name⟩
      oldEvents ++ newEvents ++ if newRead then [compared] else []
    else oldEvents
  | some old, none => (sideEvents settings job.name .old old).1
  | none, some new => (sideEvents settings job.name .new new).1
  | none, none => []

end Job

namespace Comparison

/-- The texts of a list that occur before in it, as often as they do. -/
def repeatedAfter (seen : List String) : List String → List String
  | [] => []
  | text :: later =>
    if seen.contains text then text :: repeatedAfter seen later
    else repeatedAfter (text :: seen) later

/-- A class whose name came before on its side is ignored. -/
def duplicateEvents (side : Side) (classes : List NamedClass) : List LogEvent :=
  (repeatedAfter [] (classes.map NamedClass.name)).map fun name =>
    ⟨.warn, "Ignoring duplicate " ++ side.text ++ " class " ++ name⟩

/-- The events of comparing two lists of classes. -/
def events (settings : Settings) (old new : List NamedClass) : List LogEvent :=
  duplicateEvents .old old ++ duplicateEvents .new new ++
    (Job.ofClasses old new).flatMap (Job.events settings)

end Comparison

end ClassDelta
