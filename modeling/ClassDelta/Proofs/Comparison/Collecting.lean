import ClassDelta.Comparison.Basic
import Mathlib.Data.List.Induction
import Mathlib.Data.List.Nodup

/-!
# Collecting outcomes

The index of a job is its position among the jobs, and its name is at the same
position among the names (`Roster.ofJobs_eq`).

Deliveries are put into slots one after the other, and a later one could
overwrite an earlier one.  As every index belongs to one job, it could only do
so with the same outcome, and what is in the slots depends on which deliveries
came, but not on their order (`getElem?_collect`).

When all of them have come, in any order, every slot holds the outcome of its
job (`collect_of_perm`), and that is what the report is made of (`report_eq`).
-/

namespace ClassDelta.Comparison

variable {settings : Settings} {jobs : List Job}

/-! ## Names and tickets -/

namespace Roster

theorem ofJobs_append (jobs : List Job) (job : Job) :
    ofJobs (jobs ++ [job]) = (ofJobs jobs).enter job := by
  rw [ofJobs, List.foldl_append]
  rfl

/-- Entering one more job keeps names and indices in step with the jobs. -/
theorem ofJobs_eq (jobs : List Job) :
    ofJobs jobs = ⟨jobs.map Job.name, jobs.mapIdx Ticket.mk⟩ := by
  induction jobs using List.reverseRecOn with
  | nil => rfl
  | append_singleton jobs job ih =>
    rw [ofJobs_append, ih, enter, List.length_map, List.map_append, List.map_singleton,
      List.mapIdx_concat]

@[simp] theorem names_ofJobs (jobs : List Job) : (ofJobs jobs).names = jobs.map Job.name := by
  rw [ofJobs_eq]

end Roster

theorem tickets_eq_mapIdx (jobs : List Job) : tickets jobs = jobs.mapIdx Ticket.mk := by
  rw [tickets, Roster.ofJobs_eq]

theorem mem_tickets_iff {ticket : Ticket} :
    ticket ∈ tickets jobs ↔ jobs[ticket.index]? = some ticket.job := by
  rw [tickets_eq_mapIdx, List.mem_mapIdx]
  constructor
  · rintro ⟨index, hindex, rfl⟩
    exact List.getElem?_eq_getElem hindex
  · intro hjob
    obtain ⟨hindex, hget⟩ := List.getElem?_eq_some_iff.1 hjob
    exact ⟨ticket.index, hindex, by rw [hget]⟩

theorem map_index_tickets (jobs : List Job) :
    (tickets jobs).map Ticket.index = List.range jobs.length := by
  refine List.ext_getElem? fun index => ?_
  rw [tickets_eq_mapIdx, List.getElem?_map, List.getElem?_mapIdx]
  by_cases hindex : index < jobs.length
  · simp [hindex]
  · simp [Nat.le_of_not_lt hindex]

/-! ## Deliveries -/

theorem map_index_deliveries (settings : Settings) (jobs : List Job) :
    (deliveries settings jobs).map Delivery.index = List.range jobs.length := by
  rw [deliveries, List.map_map]
  exact map_index_tickets jobs

/-- What is delivered under an index is the outcome of the job at the index. -/
theorem mem_deliveries_iff {delivery : Delivery} :
    delivery ∈ deliveries settings jobs ↔
      ∃ job, jobs[delivery.index]? = some job ∧ job.outcome settings = delivery.outcome := by
  unfold deliveries
  rw [List.mem_map]
  constructor
  · rintro ⟨ticket, hmem, rfl⟩
    exact ⟨ticket.job, mem_tickets_iff.1 hmem, rfl⟩
  · rintro ⟨job, hjob, houtcome⟩
    exact ⟨⟨delivery.index, job⟩, mem_tickets_iff.2 hjob, by rw [Ticket.delivery, houtcome]⟩

/-! ## What is in the slots -/

@[simp] theorem length_receive (slots : List (Option Outcome)) (delivery : Delivery) :
    (receive slots delivery).length = slots.length :=
  List.length_set

theorem collect_append (count : Nat) (sequence : List Delivery) (delivery : Delivery) :
    collect count (sequence ++ [delivery]) = receive (collect count sequence) delivery := by
  rw [collect, List.foldl_append]
  rfl

@[simp] theorem length_collect (count : Nat) (sequence : List Delivery) :
    (collect count sequence).length = count := by
  induction sequence using List.reverseRecOn with
  | nil => exact List.length_replicate
  | append_singleton sequence delivery ih => rw [collect_append, length_receive, ih]

/-- A slot holds the outcome of its job when a delivery for it came, whatever
came before and after.  The induction takes the last delivery off. -/
theorem getElem?_collect {sequence : List Delivery}
    (h : ∀ delivery ∈ sequence, delivery ∈ deliveries settings jobs) (index : Nat) :
    (collect jobs.length sequence)[index]? = jobs[index]?.map fun job =>
      if index ∈ sequence.map Delivery.index then some (job.outcome settings) else none := by
  induction sequence using List.reverseRecOn with
  | nil =>
    by_cases hindex : index < jobs.length
    · simp [collect, hindex]
    · simp [collect, hindex]
  | append_singleton sequence delivery ih =>
    have hearlier := ih fun earlier hmem => h earlier (List.mem_append_left _ hmem)
    obtain ⟨job, hjob, houtcome⟩ := mem_deliveries_iff.1 (h delivery (by simp))
    have hbound : delivery.index < jobs.length := (List.getElem?_eq_some_iff.1 hjob).1
    rw [collect_append, receive, List.getElem?_set, length_collect, hearlier]
    by_cases hsame : delivery.index = index
    · subst hsame
      rw [hjob]
      simp [hbound, houtcome]
    · have hother : ¬ index = delivery.index := fun heq => hsame heq.symm
      simp [hsame, hother]

/-- When all deliveries came, in whatever order, no slot is empty. -/
theorem collect_of_perm {sequence : List Delivery}
    (h : sequence.Perm (deliveries settings jobs)) :
    collect jobs.length sequence = jobs.map fun job => some (job.outcome settings) := by
  refine List.ext_getElem? fun index => ?_
  rw [getElem?_collect fun delivery hmem => h.mem_iff.1 hmem, List.getElem?_map]
  have hindices : (sequence.map Delivery.index).Perm (List.range jobs.length) :=
    map_index_deliveries settings jobs ▸ h.map Delivery.index
  by_cases hindex : index < jobs.length
  · have hmem : index ∈ sequence.map Delivery.index :=
      hindices.mem_iff.2 (List.mem_range.2 hindex)
    simp only [hmem, if_true]
  · rw [List.getElem?_eq_none (Nat.le_of_not_lt hindex)]
    rfl

/-! ## The report -/

/-- The report on jobs that are all finished has each name with the outcome of
its own job. -/
theorem reportOf_outcomes (settings : Settings) (jobs : List Job) :
    reportOf jobs (jobs.map fun job => some (job.outcome settings)) =
      ⟨jobs.map fun job => ⟨job.name, job.outcome settings⟩⟩ := by
  rw [reportOf, Roster.names_ofJobs, List.zipWith_map, List.zipWith_self]
  rfl

theorem report_eq (settings : Settings) (old new : List NamedClass) :
    report settings old new =
      ⟨(Job.ofClasses old new).map fun job => ⟨job.name, job.outcome settings⟩⟩ := by
  rw [← reportOf_outcomes, ← collect_of_perm (List.Perm.refl _), report, Roster.names_ofJobs,
    List.length_map]

end ClassDelta.Comparison
