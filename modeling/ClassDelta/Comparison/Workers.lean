import ClassDelta.Comparison.Basic

/-!
# Workers

The jobs of a comparison are shared out to workers, which finish them in any
order.  A worker puts the outcome of a finished job into a channel, and the
caller takes deliveries out of it, in the order in which they came in, until it
has had one for every slot.

* `Progress.Step` is one step of such a comparison.  Any job that is not
  finished may be the next one.
* `Crew.Step` is the same with a bound on the number of workers: a job has to be
  started before it can be finished, and no more jobs are under way than the
  settings allow.
-/

namespace ClassDelta.Comparison

/-- How far a comparison has got. -/
structure Progress where
  /-- The jobs that are not finished. -/
  pending : List Ticket
  /-- The deliveries on their way, the one that came in first in front. -/
  channel : List Delivery
  slots : List (Option Outcome)
  /-- How many deliveries the caller has taken. -/
  received : Nat

/-- What can happen next. -/
inductive Move
  /-- A worker finishes a job and delivers its outcome. -/
  | finish (ticket : Ticket)
  /-- The caller takes a delivery. -/
  | take (delivery : Delivery)

namespace Move

/-- The delivery the caller takes, if it is the caller that moves. -/
def taken? : Move → Option Delivery
  | finish _ => none
  | take delivery => some delivery

end Move

namespace Progress

/-- No job is finished. -/
def start (jobs : List Job) : Progress :=
  ⟨tickets jobs, [], List.replicate (Roster.ofJobs jobs).names.length none, 0⟩

/-- One step of a comparison.  The caller stops taking deliveries when it has
had as many as there are slots. -/
inductive Step (settings : Settings) : Progress → Move → Progress → Prop
  | finish {progress : Progress} {before : List Ticket} {ticket : Ticket} {after : List Ticket}
      (hpending : progress.pending = before ++ ticket :: after) :
    Step settings progress (.finish ticket)
      { progress with
        pending := before ++ after
        channel := progress.channel ++ [ticket.delivery settings] }
  | take {progress : Progress} {delivery : Delivery} {later : List Delivery}
      (hchannel : progress.channel = delivery :: later)
      (hopen : progress.received < progress.slots.length) :
    Step settings progress (.take delivery)
      { progress with
        channel := later
        slots := receive progress.slots delivery
        received := progress.received + 1 }

end Progress

/-- A comparison whose jobs wait for a worker. -/
structure Crew where
  progress : Progress
  /-- The jobs that no worker has started.  The workers are busy with all other
  pending jobs. -/
  waiting : List Ticket

namespace Crew

/-- No job is started. -/
def start (jobs : List Job) : Crew := ⟨.start jobs, tickets jobs⟩

/-- One step of a comparison by as many workers as the settings allow. -/
inductive Step (settings : Settings) : Crew → Crew → Prop
  | start {crew : Crew} {before : List Ticket} {ticket : Ticket} {after : List Ticket}
      (hwaiting : crew.waiting = before ++ ticket :: after)
      (hfree : crew.progress.pending.length < crew.waiting.length + settings.parallelism) :
    Step settings crew { crew with waiting := before ++ after }
  | finish {crew : Crew} {ticket : Ticket} {later : Progress} (hstarted : ticket ∉ crew.waiting)
      (hstep : crew.progress.Step settings (.finish ticket) later) :
    Step settings crew { crew with progress := later }
  | take {crew : Crew} {delivery : Delivery} {later : Progress}
      (hstep : crew.progress.Step settings (.take delivery) later) :
    Step settings crew { crew with progress := later }

end Crew

end ClassDelta.Comparison
