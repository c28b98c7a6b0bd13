/-!
# Journals

What a run has to say about its progress, as leveled messages.  Reading and
comparing return their events as values next to their results, and the program
around them decides which of them to show.
-/

namespace ClassDelta

/-- How much a message matters, the most important level first. -/
inductive LogLevel
  | error
  | warn
  | info
  | debug
  | trace
deriving DecidableEq

namespace LogLevel

def name : LogLevel → String
  | error => "ERROR"
  | warn => "WARN"
  | info => "INFO"
  | debug => "DEBUG"
  | trace => "TRACE"

/-- The position of the level, from 0 for errors. -/
def rank : LogLevel → Nat
  | error => 0
  | warn => 1
  | info => 2
  | debug => 3
  | trace => 4

end LogLevel

/-- A message with its level. -/
structure LogEvent where
  level : LogLevel
  message : String
deriving DecidableEq

namespace LogEvent

def line (event : LogEvent) : String := event.level.name ++ " " ++ event.message

/-- The message is at least as important as the level. -/
def isShownAt (threshold : LogLevel) (event : LogEvent) : Bool :=
  event.level.rank ≤ threshold.rank

end LogEvent

/-- A computation that says something on the way.  What was said before a
failure is kept. -/
abbrev Journaled (ε : Type) := EStateM ε (List LogEvent)

namespace Journaled

variable {ε α : Type}

/-- Add events to the journal. -/
def tell (events : List LogEvent) : Journaled ε Unit := modify (· ++ events)

/-- Fail or go on without saying anything. -/
def ofExcept (result : Except ε α) : Journaled ε α :=
  match result with
  | .ok value => pure value
  | .error error => throw error

/-- The same computation with its errors reworded. -/
def mapError {ε' : Type} (reword : ε → ε') (computation : Journaled ε α) : Journaled ε' α :=
  fun events =>
    match computation events with
    | .ok value events => .ok value events
    | .error error events => .error (reword error) events

/-- The result and the journal of a computation. -/
def outcome (computation : Journaled ε α) : Except ε α × List LogEvent :=
  match computation [] with
  | .ok value events => (.ok value, events)
  | .error error events => (.error error, events)

end Journaled

end ClassDelta
