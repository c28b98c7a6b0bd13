import ClassDelta.Proofs.Archive.Collector
import Mathlib.Data.List.Induction

/-!
# Reads that fail

An attempt to add an entry may fail, and adding may go on behind it.
`Collector.after` is the collector after any number of attempts.

What a collector remembers of a name is meant to say where its class is
(`Collector.Linked`): the position holds a class of that name, with the bytes of
an entry of the rank.  But a name that comes up for the first time is remembered
before its bytes are read.  If they cannot be read, its position is the end of
the list, where the next class of any other name will stand.  A failure at a name
that is known changes neither the classes nor what is remembered.

* `Collector.lookup_after_eq_none_iff` says which names are remembered, and
  `Collector.classes_and_seen_of_error` what a failure leaves.
* `Collector.Linked.next` is one attempt, and `Collector.linked_after_iff` says
  for all of them when names stay at their classes.  Until then no position lies
  outside of the classes (`Collector.Linked.position_lt`).
* `Collector.Linked.getElem?_next` is on the bytes that are replaced.

The main statement is `Collector.failures_and_linked_after`.
-/

namespace ClassDelta

namespace Collector

variable {ε π : Type} [PathPattern π] {filter : EntryFilter π} {attempt : Attempt ε} {before : Collector}
  {name : String} {rank : Nat} {place : SeenClass}

/-! ## One attempt -/

namespace Attempt

/-- The class name that the path has was seen before. -/
def IsKnown (filter : EntryFilter π) (before : Collector) (attempt : Attempt ε) : Prop :=
  ∀ name rank, filter.classify attempt.path = some (name, rank) → before.seen.lookup name ≠ none

theorem isKnown_of_shadowed (hshadowed : ∀ name rank,
      filter.classify attempt.path = some (name, rank) →
        ∃ place, before.seen.lookup name = some place ∧ place.rank < rank) :
    attempt.IsKnown filter before := by
  intro name rank hclassify
  obtain ⟨place, hseen, -⟩ := hshadowed name rank hclassify
  rw [hseen]
  exact Option.some_ne_none place

theorem isKnown_of_seen (hclassify : filter.classify attempt.path = some (name, rank))
    (hseen : before.seen.lookup name = some place) : attempt.IsKnown filter before := by
  intro name' rank' hsome
  rw [hclassify] at hsome
  cases hsome
  rw [hseen]
  exact Option.some_ne_none place

/-- The path has a class name that none of those before had, and it cannot be read. -/
def FailsFirst (filter : EntryFilter π) (done : List (Attempt ε)) (attempt : Attempt ε) : Prop :=
  ∃ name rank error, filter.classify attempt.path = some (name, rank) ∧
    attempt.read = .error error ∧
    ∀ earlier ∈ done, ∀ other : Nat, filter.classify earlier.path ≠ some (name, other)

end Attempt

/-- The collector after an attempt, whether it failed or not. -/
def next (filter : EntryFilter π) (before : Collector) (attempt : Attempt ε) : Collector :=
  Stateful.endState (attempt.perform filter) before

/-- A known name does not make another one known. -/
theorem Attempt.IsKnown.lookup_eq_none_iff (h : attempt.IsKnown filter before) :
    before.seen.lookup name = none ↔ before.seen.lookup name = none ∧
      ∀ rank, filter.classify attempt.path ≠ some (name, rank) := by
  constructor
  · intro hnone
    exact ⟨hnone, fun rank hclassify => h name rank hclassify hnone⟩
  · intro hboth
    exact hboth.1

theorem lookup_remember_eq_none_iff {other : String}
    (hclassify : filter.classify attempt.path = some (other, rank)) :
    (before.remember other place).seen.lookup name = none ↔ before.seen.lookup name = none ∧
      ∀ rank, filter.classify attempt.path ≠ some (name, rank) := by
  rw [hclassify]
  constructor
  · intro hnone
    obtain ⟨hother, hnone⟩ := lookup_remember_eq_none hnone
    refine ⟨hnone, fun rank hsome => hother ?_⟩
    cases hsome
    rfl
  · intro hboth
    have hother : name ≠ other := fun heq => hboth.2 rank (by rw [heq])
    rw [lookup_remember, if_neg hother]
    exact hboth.1

/-- A name is unknown if it was unknown before and does not come up. -/
theorem lookup_next_eq_none_iff :
    (next filter before attempt).seen.lookup name = none ↔
      before.seen.lookup name = none ∧
        ∀ rank, filter.classify attempt.path ≠ some (name, rank) := by
  cases attempt.goes filter before with
  | skipped message hstep hshadowed =>
    rw [next, Stateful.endState_of_ok hstep]
    exact (Attempt.isKnown_of_shadowed hshadowed).lookup_eq_none_iff
  | failed other rank error place later hstep hclassify _ hseen _ hsame =>
    rw [next, Stateful.endState_of_error hstep, hsame]
    exact (Attempt.isKnown_of_seen hclassify hseen).lookup_eq_none_iff
  | failedFirst other rank error hstep hclassify _ _ =>
    rw [next, Stateful.endState_of_error hstep]
    exact lookup_remember_eq_none_iff hclassify
  | first other rank bytes hstep hclassify _ _ =>
    rw [next, Stateful.endState_of_ok hstep]
    exact lookup_remember_eq_none_iff hclassify
  | better other rank bytes place message hstep hclassify _ _ _ =>
    rw [next, Stateful.endState_of_ok hstep]
    exact lookup_remember_eq_none_iff hclassify
  | further other rank bytes place hstep hclassify _ hseen _ =>
    rw [next, Stateful.endState_of_ok hstep]
    exact (Attempt.isKnown_of_seen hclassify hseen).lookup_eq_none_iff

/-! ## Where classes are -/

/-- The bytes were read under the name, with an extension of the rank. -/
def WasRead (filter : EntryFilter π) (done : List (Attempt ε)) (name : String) (rank : Nat)
    (bytes : Bytes) : Prop :=
  ∃ attempt ∈ done, filter.classify attempt.path = some (name, rank) ∧ attempt.read = .ok bytes

/-- Every name that was seen is the one of the class at its position, whose bytes
were read under it with the rank. -/
def Linked (filter : EntryFilter π) (done : List (Attempt ε)) (collector : Collector) : Prop :=
  ∀ name place, collector.seen.lookup name = some place →
    ∃ bytes, collector.classes[place.position]? = some ⟨name, bytes⟩ ∧
      WasRead filter done name place.rank bytes

variable {done : List (Attempt ε)} {bytes : Bytes}

theorem WasRead.append (h : WasRead filter done name rank bytes) (attempt : Attempt ε) :
    WasRead filter (done ++ [attempt]) name rank bytes := by
  obtain ⟨earlier, hmem, hread⟩ := h
  exact ⟨earlier, List.mem_append_left _ hmem, hread⟩

theorem wasRead_last (hclassify : filter.classify attempt.path = some (name, rank))
    (hread : attempt.read = .ok bytes) : WasRead filter (done ++ [attempt]) name rank bytes :=
  ⟨attempt, List.mem_append_right _ List.mem_cons_self, hclassify, hread⟩

theorem linked_fresh (filter : EntryFilter π) : fresh.Linked filter ([] : List (Attempt ε)) :=
  fun _ _ hseen => nomatch hseen

/-- A position that is remembered is then one of a class, so that there are bytes to
be replaced. -/
theorem Linked.position_lt (h : before.Linked filter done)
    (hseen : before.seen.lookup name = some place) : place.position < before.classes.length := by
  obtain ⟨bytes, hclass, -⟩ := h name place hseen
  exact (List.getElem?_eq_some_iff.1 hclass).1

/-- An attempt that leaves names and classes where they are. -/
theorem Linked.keep (h : before.Linked filter done) {later : Collector}
    (hclasses : later.classes = before.classes) (hseen : later.seen = before.seen)
    (attempt : Attempt ε) : later.Linked filter (done ++ [attempt]) := by
  intro name place hlookup
  rw [hseen] at hlookup
  obtain ⟨bytes, hclass, hread⟩ := h name place hlookup
  rw [hclasses]
  exact ⟨bytes, hclass, hread.append attempt⟩

/-- Classes that are put behind the others leave these where they are. -/
theorem Linked.append (h : before.Linked filter done) (added : String) (bytes : Bytes)
    (attempt : Attempt ε) : (before.append added bytes).Linked filter (done ++ [attempt]) := by
  intro name place hlookup
  obtain ⟨found, hclass, hread⟩ := h name place hlookup
  refine ⟨found, ?_, hread.append attempt⟩
  show (before.classes ++ [NamedClass.mk added bytes])[place.position]? = some ⟨name, found⟩
  rw [List.getElem?_append_left (h.position_lt hlookup), hclass]

/-- The first class of a name is put where the name was told it would be. -/
theorem Linked.remember_append (h : before.Linked filter done)
    (hclassify : filter.classify attempt.path = some (name, rank))
    (hread : attempt.read = .ok bytes) :
    ((before.remember name ⟨before.classes.length, rank⟩).append name bytes).Linked filter
      (done ++ [attempt]) := by
  intro other place hlookup
  obtain ⟨rfl, rfl⟩ | ⟨-, hlookup⟩ := lookup_remember_eq_some hlookup
  · exact ⟨bytes, List.getElem?_concat_length, wasRead_last hclassify hread⟩
  · exact h.append name bytes attempt other place hlookup

/-- The class at the position of a name is the only one that gets other bytes. -/
theorem getElem?_replace (h : before.Linked filter done)
    (hseen : before.seen.lookup name = some place) (bytes : Bytes) (position : Nat) :
    (before.replace place.position bytes).classes[position]? =
      if position = place.position then some ⟨name, bytes⟩ else before.classes[position]? := by
  obtain ⟨found, hclass, -⟩ := h name place hseen
  show (before.classes.modify place.position fun found => { found with bytes })[position]? = _
  by_cases heq : position = place.position
  · rw [if_pos heq, heq, List.getElem?_modify_eq, hclass]
    rfl
  · rw [if_neg heq, List.getElem?_modify_ne _ _ (Ne.symm heq)]

theorem Linked.replace (h : before.Linked filter done)
    (hclassify : filter.classify attempt.path = some (name, rank))
    (hread : attempt.read = .ok bytes) (hseen : before.seen.lookup name = some place) :
    ((before.replace place.position bytes).remember name ⟨place.position, rank⟩).Linked filter
      (done ++ [attempt]) := by
  intro other place' hlookup
  show ∃ found, (before.replace place.position bytes).classes[place'.position]? = _ ∧ _
  rw [getElem?_replace h hseen]
  obtain ⟨rfl, rfl⟩ | ⟨hother, hlookup⟩ := lookup_remember_eq_some hlookup
  · exact ⟨bytes, if_pos rfl, wasRead_last hclassify hread⟩
  · obtain ⟨kept, hkept, hbytes⟩ := h other place' hlookup
    refine ⟨kept, ?_, hbytes.append attempt⟩
    -- Two names are not at one position.
    have hposition : place'.position ≠ place.position := by
      intro heq
      obtain ⟨found, hclass, -⟩ := h name place hseen
      rw [heq, hclass] at hkept
      cases hkept
      exact hother rfl
    rw [if_neg hposition, hkept]

/-- An attempt keeps every name at its class, unless it fails at a new name. -/
theorem Linked.next (h : before.Linked filter done)
    (hfirst : ∀ name rank error, filter.classify attempt.path = some (name, rank) →
      attempt.read = .error error → before.seen.lookup name ≠ none) :
    (Collector.next filter before attempt).Linked filter (done ++ [attempt]) := by
  cases attempt.goes filter before with
  | skipped message hstep _ =>
    rw [Collector.next, Stateful.endState_of_ok hstep]
    exact h.keep rfl rfl attempt
  | failed name rank error place later hstep _ _ _ hclasses hsame =>
    rw [Collector.next, Stateful.endState_of_error hstep]
    exact h.keep hclasses hsame attempt
  | failedFirst name rank error _ hclassify hread hnew =>
    exact absurd hnew (hfirst name rank error hclassify hread)
  | first name rank bytes hstep hclassify hread _ =>
    rw [Collector.next, Stateful.endState_of_ok hstep]
    exact h.remember_append hclassify hread
  | better name rank bytes place message hstep hclassify hread hseen _ =>
    rw [Collector.next, Stateful.endState_of_ok hstep]
    have hnoted : (before.note message).Linked filter done := h
    exact hnoted.replace hclassify hread hseen
  | further name rank bytes place hstep _ _ _ _ =>
    rw [Collector.next, Stateful.endState_of_ok hstep]
    exact h.append name bytes attempt

/-! ## All attempts -/

/-- The collector after some attempts. -/
def after (filter : EntryFilter π) (attempts : List (Attempt ε)) : Collector :=
  attempts.foldl (next filter) fresh

theorem after_append_singleton (filter : EntryFilter π) (attempts : List (Attempt ε))
    (attempt : Attempt ε) :
    after filter (attempts ++ [attempt]) = next filter (after filter attempts) attempt := by
  rw [after, List.foldl_append, List.foldl_cons, List.foldl_nil]
  rfl

/-- The names that are remembered are those that came up, whether they could be
read or not. -/
theorem lookup_after_eq_none_iff :
    (after filter done).seen.lookup name = none ↔
      ∀ attempt ∈ done, ∀ rank, filter.classify attempt.path ≠ some (name, rank) := by
  induction done using List.reverseRecOn with
  | nil => exact ⟨fun _ _ hmem => absurd hmem List.not_mem_nil, fun _ => rfl⟩
  | append_singleton done attempt ih =>
    rw [after_append_singleton, lookup_next_eq_none_iff, ih, List.forall_mem_append,
      List.forall_mem_singleton]

/-- A failure that is not the first attempt at a name is one at a name that is
remembered. -/
theorem lookup_after_ne_none (hfirst : ¬ attempt.FailsFirst filter done) {error : ε}
    (hclassify : filter.classify attempt.path = some (name, rank))
    (hread : attempt.read = .error error) : (after filter done).seen.lookup name ≠ none := by
  intro hnone
  exact hfirst ⟨name, rank, error, hclassify, hread, lookup_after_eq_none_iff.1 hnone⟩

/-- A failure leaves the classes, and it leaves what is remembered unless the name is
new. -/
theorem classes_and_seen_of_error {error : ε} {later : Collector}
    (h : attempt.perform filter (after filter done) = .error error later) :
    later.classes = (after filter done).classes ∧
      (later.seen = (after filter done).seen ↔ ¬ attempt.FailsFirst filter done) := by
  cases attempt.goes filter (after filter done) with
  | failed _ _ _ _ _ hstep hclassify _ hseen hclasses hsame =>
    rw [hstep] at h
    cases h
    refine ⟨hclasses, fun _ hfirst => ?_, fun _ => hsame⟩
    obtain ⟨name, rank, _, hclassify', -, hnew⟩ := hfirst
    exact Attempt.isKnown_of_seen hclassify hseen name rank hclassify'
      (lookup_after_eq_none_iff.2 hnew)
  | failedFirst name rank error' hstep hclassify hread hnew =>
    rw [hstep] at h
    cases h
    refine ⟨rfl, fun hseen => absurd hseen (List.cons_ne_self _ _), fun hfirst => ?_⟩
    exact absurd hnew (lookup_after_ne_none hfirst hclassify hread)
  | skipped _ hstep _ => rw [hstep] at h; cases h
  | first _ _ _ hstep _ _ _ => rw [hstep] at h; cases h
  | better _ _ _ _ _ hstep _ _ _ _ => rw [hstep] at h; cases h
  | further _ _ _ _ hstep _ _ _ _ => rw [hstep] at h; cases h

/-- A new name that cannot be read is remembered with a position that no class has. -/
theorem not_linked_of_failsFirst (h : attempt.FailsFirst filter done) :
    ¬ (after filter (done ++ [attempt])).Linked filter (done ++ [attempt]) := by
  obtain ⟨name, rank, error, hclassify, hread, hnew⟩ := h
  have hnone : (after filter done).seen.lookup name = none := lookup_after_eq_none_iff.2 hnew
  have hstep := Attempt.perform_of_unseen hclassify hread hnone
  rw [after_append_singleton, next, Stateful.endState_of_error hstep]
  intro hlinked
  have hlookup : ((after filter done).remember name
      ⟨(after filter done).classes.length, rank⟩).seen.lookup name =
        some ⟨(after filter done).classes.length, rank⟩ := by
    rw [lookup_remember, if_pos rfl]
  exact Nat.lt_irrefl _ (hlinked.position_lt hlookup)

/-- Names are at their classes all the time exactly if no failure is the first
attempt at a name. -/
theorem linked_after_iff {attempts : List (Attempt ε)} :
    (∀ done, done <+: attempts → (after filter done).Linked filter done) ↔
      ∀ done attempt, done ++ [attempt] <+: attempts → ¬ attempt.FailsFirst filter done := by
  constructor
  · intro h done attempt hprefix hfails
    exact not_linked_of_failsFirst hfails (h _ hprefix)
  · intro h done hprefix
    induction done using List.reverseRecOn with
    | nil => exact linked_fresh filter
    | append_singleton done attempt ih =>
      rw [after_append_singleton]
      refine Linked.next (ih ((List.prefix_append done [attempt]).trans hprefix)) ?_
      intro name rank error hclassify hread
      exact lookup_after_ne_none (h done attempt hprefix) hclassify hread

/-- An entry that takes precedence changes the bytes at the position of its name and
nowhere else. -/
theorem Linked.getElem?_next (h : before.Linked filter done)
    (hclassify : filter.classify attempt.path = some (name, rank))
    (hread : attempt.read = .ok bytes) (hseen : before.seen.lookup name = some place)
    (hrank : rank < place.rank) (position : Nat) :
    (Collector.next filter before attempt).classes[position]? =
      if position = place.position then some ⟨name, bytes⟩ else before.classes[position]? := by
  obtain ⟨message, hstep⟩ := Attempt.perform_of_better hclassify hread hseen hrank
  rw [Collector.next, Stateful.endState_of_ok hstep]
  exact getElem?_replace h hseen bytes position

/-- Attempts may fail, and adding goes on.  A failure leaves the classes as they were,
and it leaves what is remembered exactly if it is not the first attempt at a name.
Every name is remembered with the position of a class of that name, whose bytes were
read with the rank, exactly as long as no name fails when it comes up first.  Then an
entry that takes precedence changes the bytes of a class of its own name and no
other class. -/
theorem failures_and_linked_after (filter : EntryFilter π) (attempts : List (Attempt ε)) :
    (∀ (attempt : Attempt ε) (error : ε) (later : Collector),
      attempt.perform filter (after filter attempts) = .error error later →
        later.classes = (after filter attempts).classes ∧
          (later.seen = (after filter attempts).seen ↔ ¬ attempt.FailsFirst filter attempts)) ∧
    ((∀ done, done <+: attempts → (after filter done).Linked filter done) ↔
      ∀ done attempt, done ++ [attempt] <+: attempts → ¬ attempt.FailsFirst filter done) ∧
    ((after filter attempts).Linked filter attempts →
      ∀ (attempt : Attempt ε) (name : String) (rank : Nat) (bytes : Bytes) (place : SeenClass),
        filter.classify attempt.path = some (name, rank) → attempt.read = .ok bytes →
        (after filter attempts).seen.lookup name = some place → rank < place.rank →
          (∃ old, (after filter attempts).classes[place.position]? = some ⟨name, old⟩) ∧
          ∀ position, (after filter (attempts ++ [attempt])).classes[position]? =
            if position = place.position then some ⟨name, bytes⟩
            else (after filter attempts).classes[position]?) := by
  refine ⟨fun attempt error later => classes_and_seen_of_error, linked_after_iff, ?_⟩
  intro hlinked attempt name rank bytes place hclassify hread hseen hrank
  constructor
  · obtain ⟨old, hclass, -⟩ := hlinked name place hseen
    exact ⟨old, hclass⟩
  · rw [after_append_singleton]
    exact hlinked.getElem?_next hclassify hread hseen hrank

/-- An entry that cannot be read, of a class that another entry has given. -/
def unreadableSample : List (Attempt Unit) :=
  [⟨"a/B.clazz", .ok [1]⟩, ⟨"a/B.class", .error ()⟩, ⟨"a/C.class", .ok [2]⟩]

theorem failures_and_linked_after_unreadable :
    let filter : EntryFilter := EntryFilter.classFiles.withExtension ".clazz"
    (∀ done, done <+: unreadableSample → (after filter done).Linked filter done) ∧
    (∃ old, (after filter unreadableSample).classes[0]? = some ⟨"a/B", old⟩) ∧
    ∀ position, (after filter (unreadableSample ++ [⟨"a/B.class", .ok [3]⟩])).classes[position]? =
      if position = 0 then some ⟨"a/B", [3]⟩
      else (after filter unreadableSample).classes[position]? := by
  intro filter
  obtain ⟨-, hlinked, hreplace⟩ := failures_and_linked_after filter unreadableSample
  have hknown : ∀ done attempt, done ++ [attempt] <+: unreadableSample →
      ¬ attempt.FailsFirst filter done := by
    intro done attempt hprefix hfails
    obtain ⟨name, rank, error, hclassify, hread, hnew⟩ := hfails
    have hmem : attempt ∈ unreadableSample :=
      hprefix.subset (List.mem_append_right _ List.mem_cons_self)
    simp only [unreadableSample, List.mem_cons, List.not_mem_nil, or_false] at hmem
    obtain rfl | rfl | rfl := hmem
    · cases hread
    · -- The other entry of the class is in front of this one.
      cases done with
      | nil => exact absurd (List.cons_prefix_cons.1 hprefix).1 (by decide)
      | cons first done =>
        obtain ⟨rfl, -⟩ := List.cons_prefix_cons.1 hprefix
        have hname : filter.classify "a/B.class" = some ("a/B", 0) := by decide
        rw [hname] at hclassify
        cases hclassify
        exact hnew _ List.mem_cons_self 1 (by decide)
    · cases hread
  have hprefixes := hlinked.2 hknown
  refine ⟨hprefixes, ?_⟩
  exact hreplace (hprefixes _ (List.prefix_refl _)) ⟨"a/B.class", .ok [3]⟩ "a/B" 0 [3] ⟨0, 1⟩
    (by decide) rfl (by decide) (by decide)

/-- A new name that cannot be read stays with the position of the next class, which is
then given the bytes of another one. -/
theorem not_linked_of_unreadable_first :
    let filter : EntryFilter := EntryFilter.classFiles.withExtension ".clazz"
    let first : Attempt Unit := ⟨"a/B.clazz", .error ()⟩
    let second : Attempt Unit := ⟨"a/C.class", .ok [1]⟩
    let third : Attempt Unit := ⟨"a/B.class", .ok [2]⟩
    first.perform filter fresh = .error () ⟨[], [("a/B", ⟨0, 1⟩)], []⟩ ∧ fresh.seen = [] ∧
    (after filter [first, second]).classes = [⟨"a/C", [1]⟩] ∧
    ¬ (after filter [first, second]).Linked filter [first, second] ∧
    (after filter [first, second, third]).classes = [⟨"a/C", [2]⟩] := by
  intro filter first second third
  have hclasses : (after filter [first, second]).classes = [⟨"a/C", [1]⟩] := by decide
  have hfirst : filter.classify first.path = some ("a/B", 1) := by decide
  refine ⟨Attempt.perform_of_unseen hfirst rfl rfl, rfl, hclasses, fun hlinked => ?_, by decide⟩
  obtain ⟨bytes, hclass, -⟩ := hlinked "a/B" ⟨0, 1⟩ (by decide)
  rw [hclasses, List.getElem?_cons_zero, Option.some_inj, NamedClass.mk.injEq] at hclass
  exact absurd hclass.1 (by decide)

end Collector

end ClassDelta
