import ClassDelta.Archive.EntryFilter
import ClassDelta.Comparison.Basic

/-!
# Collecting classes from entries

A `Collector` goes through the entries of an archive.  When a class comes under
several extensions, the bytes under the most important extension are kept, at
the position of whichever entry came first.  Further entries with the same
extension are kept as further classes of that name.

Bytes are read only when they are wanted; a failing read ends `Collector.add`
with the state it had reached.
-/

namespace ClassDelta

/-- Where a class that was seen is kept, and the rank of its extension. -/
structure SeenClass where
  position : Nat
  rank : Nat
deriving DecidableEq

/-- The classes found so far. -/
structure Collector where
  classes : List NamedClass
  /-- The names seen so far, the latest first. -/
  seen : List (String × SeenClass)
  events : List LogEvent

namespace Collector

/-- No entry has been looked at. -/
def fresh : Collector := ⟨[], [], []⟩

/-- Remember where a name is kept. -/
def remember (collector : Collector) (name : String) (place : SeenClass) : Collector :=
  { collector with seen := (name, place) :: collector.seen }

def note (collector : Collector) (message : String) : Collector :=
  { collector with events := collector.events ++ [⟨.trace, message⟩] }

/-- Put bytes behind the classes found so far. -/
def append (collector : Collector) (name : String) (bytes : Bytes) : Collector :=
  { collector with classes := collector.classes ++ [⟨name, bytes⟩] }

/-- Put bytes in the place of those found before.  The position has to be one of a
class; any other one changes nothing.  What is remembered is such a position as
long as all reads succeed (`Collector.Gathers.position_lt`), and behind failures
as long as none of them was at a new name (`Collector.Linked.position_lt`). -/
def replace (collector : Collector) (position : Nat) (bytes : Bytes) : Collector :=
  { collector with
    classes := collector.classes.modify position fun found => { found with bytes } }

variable {ε π : Type} [PathPattern π]

/-- Add the class of an entry.  A name is remembered as seen before its bytes
are read, and a place in the list is given a better rank after that. -/
def add (filter : EntryFilter π) (path : String) (read : Unit → Except ε Bytes) :
    EStateM ε Collector Unit := fun collector =>
  match filter.classify path with
  | none => .ok () (collector.note ("Skipping entry " ++ path))
  | some (name, rank) =>
    match collector.seen.lookup name with
    | none =>
      let collector := collector.remember name ⟨collector.classes.length, rank⟩
      match read () with
      | .ok bytes => .ok () (collector.append name bytes)
      | .error error => .error error collector
    | some place =>
      if rank < place.rank then
        let collector := collector.note
          ("Entry " ++ path ++ " takes precedence for class " ++ name)
        match read () with
        | .ok bytes =>
          .ok () ((collector.replace place.position bytes).remember name ⟨place.position, rank⟩)
        | .error error => .error error collector
      else if place.rank < rank then
        .ok () (collector.note ("Skipping entry " ++ path ++ " shadowed by another extension"))
      else
        match read () with
        | .ok bytes => .ok () (collector.append name bytes)
        | .error error => .error error collector

end Collector

end ClassDelta
