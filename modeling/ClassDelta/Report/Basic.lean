import ClassDelta.Diff

/-!
# Reports

A `Report` has one entry for every class that was looked at, each with its
`Outcome`: a list of changes, a file that could not be read, or a comparison
that was not finished in time.  `Report.summary` counts the outcomes and
`Report.exitCode` condenses them into the status of a program.
-/

namespace ClassDelta

/-- The two versions that are compared. -/
inductive Side
  | old
  | new
deriving DecidableEq

namespace Side

def text : Side → String
  | old => "old"
  | new => "new"

end Side

/-- What came out of comparing one class. -/
inductive Outcome
  /-- Every side the class is on could be read; no changes means no difference. -/
  | compared (changes : List Change)
  /-- The class file on one side could not be read. -/
  | failed (side : Side) (error : ParseError)
  /-- The comparison was not finished in time. -/
  | incomplete
deriving DecidableEq

namespace Outcome

/-- The class was compared and is different. -/
def isChanged : Outcome → Bool
  | compared changes => !changes.isEmpty
  | failed _ _ | incomplete => false

def isCompared : Outcome → Bool
  | compared _ => true
  | failed _ _ | incomplete => false

def isFailed : Outcome → Bool
  | failed _ _ => true
  | compared _ | incomplete => false

def isIncomplete : Outcome → Bool
  | incomplete => true
  | compared _ | failed _ _ => false

end Outcome

/-- The outcome for the class of one name. -/
structure Entry where
  name : String
  outcome : Outcome
deriving DecidableEq

/-- The outcomes for all classes, in the order in which the classes were met:
those of the old version first, then those that only the new version has. -/
structure Report where
  entries : List Entry
deriving DecidableEq

/-- How often each outcome occurs. -/
structure Summary where
  compared : Nat
  /-- Compared classes with at least one change. -/
  changed : Nat
  failed : Nat
  incomplete : Nat
deriving DecidableEq

namespace Summary

def text (summary : Summary) : String :=
  summary.compared.repr ++ " classes compared, " ++ summary.failed.repr ++
    " classes failed to parse" ++
    if summary.incomplete = 0 then "" else ", " ++ summary.incomplete.repr ++ " classes incomplete"

end Summary

namespace Report

/-- The outcome for a class. -/
def get? (report : Report) (name : String) : Option Outcome :=
  (report.entries.find? fun entry => entry.name = name).map Entry.outcome

/-- The classes that could not be read. -/
def failures (report : Report) : List (String × Side × ParseError) :=
  report.entries.filterMap fun entry =>
    match entry.outcome with
    | .failed side error => some (entry.name, side, error)
    | .compared _ | .incomplete => none

def summary (report : Report) : Summary :=
  let count (test : Outcome → Bool) := report.entries.countP fun entry => test entry.outcome
  { compared := count Outcome.isCompared
    changed := count Outcome.isChanged
    failed := count Outcome.isFailed
    incomplete := count Outcome.isIncomplete }

/-- 2 when a class could not be compared, otherwise 1 when a class has changed,
and 0 when nothing has. -/
def exitCode (report : Report) : Nat :=
  let summary := report.summary
  if 0 < summary.failed || 0 < summary.incomplete then 2
  else if 0 < summary.changed then 1
  else 0

end Report

end ClassDelta
