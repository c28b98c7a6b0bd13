import ClassDelta.Comparison.Settings
import ClassDelta.Journal
import ClassDelta.Report.Basic

/-!
# Comparing two lists of classes

Classes are matched by name, and only the first class of a name counts on each
side.  The names of the old side are gone through first, then those of the new
one, and each takes what there is under it off both sides.  So every name
becomes one `Job`, and names that both sides have come with the old ones.

A `Roster` keeps the names of the jobs apart from the jobs, which go to the
workers under the number of names in front of their own.  Jobs may be finished in
any order: a finished job is delivered under its index and put into the slot of
that index, and the report puts the names and the slots together.  A slot that
stays empty stands for a comparison that was not finished in time.
-/

namespace ClassDelta

/-- The bytes of a class file under the name of its class. -/
structure NamedClass where
  name : String
  bytes : Bytes
deriving DecidableEq

namespace NamedClass

/-- The first class of every name, in order. -/
def firsts (classes : List NamedClass) : List NamedClass :=
  classes.eraseDupsBy fun later earlier => later.name == earlier.name

/-- The bytes of the first class with a name. -/
def find? (name : String) (classes : List NamedClass) : Option Bytes :=
  (classes.find? fun candidate => candidate.name = name).map NamedClass.bytes

/-- The classes with other names. -/
def without (name : String) (classes : List NamedClass) : List NamedClass :=
  classes.filter fun candidate => candidate.name ≠ name

end NamedClass

/-- One class to compare, with its bytes on the sides it is on. -/
structure Job where
  name : String
  old : Option Bytes
  new : Option Bytes
deriving DecidableEq

namespace Job

/-- The job for the first class with a name on each side. -/
def named (name : String) (old new : List NamedClass) : Job :=
  ⟨name, NamedClass.find? name old, NamedClass.find? name new⟩

/-- Neither side has the class. -/
def isEmpty (job : Job) : Bool := job.old.isNone && job.new.isNone

/-- One job for every name that leads to something.  It takes what is under its
name off both sides, so a name that comes again leads to nothing. -/
def pairUp : (names : List String) → (old new : List NamedClass) → List Job
  | [], _, _ => []
  | name :: later, old, new =>
    let job := named name old new
    let others := pairUp later (NamedClass.without name old) (NamedClass.without name new)
    if job.isEmpty then others else job :: others

/-- The jobs for two lists of classes. -/
def ofClasses (old new : List NamedClass) : List Job :=
  let old := NamedClass.firsts old
  let new := NamedClass.firsts new
  pairUp (old.map NamedClass.name ++ new.map NamedClass.name) old new

/-- Read one side of a class, or fail with the side. -/
def parseSide (supported : VersionRange) (side : Side) (bytes : Bytes) :
    Except (Side × ParseError) ClassifiedClass :=
  match ClassInfo.parse supported bytes with
  | .ok info => .ok (.ofInfo info)
  | .error error => .error (side, error)

/-- The changes to the class, or the first side that cannot be read. -/
def changes (settings : Settings) (job : Job) : Except (Side × ParseError) (List Change) := do
  match job.old, job.new with
  | some old, some new =>
    let old ← parseSide settings.supported .old old
    let new ← parseSide settings.supported .new new
    return old.changes settings.includeSynthetics new
  | some old, none =>
    return (← parseSide settings.supported .old old).removalChanges settings.includeSynthetics
  | none, some new =>
    return (← parseSide settings.supported .new new).additionChanges settings.includeSynthetics
  | none, none => return []

/-- What comes out of the job. -/
def outcome (settings : Settings) (job : Job) : Outcome :=
  match job.changes settings with
  | .ok changes => .compared changes
  | .error (side, error) => .failed side error

end Job

namespace Comparison

/-! ## Collecting outcomes -/

/-- A job under its index. -/
structure Ticket where
  index : Nat
  job : Job
deriving DecidableEq

/-- An outcome on its way to the slot of its job. -/
structure Delivery where
  index : Nat
  outcome : Outcome
deriving DecidableEq

/-- The names that the report will have, and the jobs that workers do for it. -/
structure Roster where
  names : List String
  tickets : List Ticket

namespace Roster

/-- Enter a job under the number of names so far. -/
def enter (roster : Roster) (job : Job) : Roster where
  names := roster.names ++ [job.name]
  tickets := roster.tickets ++ [⟨roster.names.length, job⟩]

/-- The roster of some jobs, entered one after the other. -/
def ofJobs (jobs : List Job) : Roster := jobs.foldl enter ⟨[], []⟩

end Roster

/-- The jobs, each under its index. -/
def tickets (jobs : List Job) : List Ticket := (Roster.ofJobs jobs).tickets

/-- What is delivered when the job is finished. -/
def Ticket.delivery (settings : Settings) (ticket : Ticket) : Delivery :=
  ⟨ticket.index, ticket.job.outcome settings⟩

/-- Put a delivered outcome into its slot.  There is one, as what is delivered comes
under the index of a job (`mem_deliveries_iff`); any other index changes nothing. -/
def receive (slots : List (Option Outcome)) (delivery : Delivery) : List (Option Outcome) :=
  slots.set delivery.index (some delivery.outcome)

/-- The deliveries of all jobs, as they come when the jobs are finished in
order. -/
def deliveries (settings : Settings) (jobs : List Job) : List Delivery :=
  (tickets jobs).map (Ticket.delivery settings)

/-- Fill the slots of the jobs from a sequence of deliveries. -/
def collect (count : Nat) (sequence : List Delivery) : List (Option Outcome) :=
  sequence.foldl receive (List.replicate count none)

/-- The entry of a name, from what is in its slot. -/
def entry (name : String) (slot : Option Outcome) : Entry := ⟨name, slot.getD .incomplete⟩

/-- The report on the jobs, from their names and what is in the slots. -/
def reportOf (jobs : List Job) (slots : List (Option Outcome)) : Report :=
  ⟨List.zipWith entry (Roster.ofJobs jobs).names slots⟩

/-- Compare two lists of classes.  There is a slot for every name. -/
def report (settings : Settings) (old new : List NamedClass) : Report :=
  let jobs := Job.ofClasses old new
  reportOf jobs (collect (Roster.ofJobs jobs).names.length (deliveries settings jobs))

end Comparison

end ClassDelta
