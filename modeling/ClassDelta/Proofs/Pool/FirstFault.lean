import ClassDelta.Proofs.Pool.EntryFault
import ClassDelta.Proofs.Pool.References

/-!
# The first fault of a pool

Bytes that do not begin with a constant pool have a first fault, which is found
by looking at one entry after the other (`PoolFault`): the count is missing or
zero, an entry is faulty or is too wide for the last slot, or, when all entries
are there, one of them stores an index that no entry starts at.

`Pool.read_eq_error_iff` says that the error of the reader names this fault, its
slot and nothing else.
-/

namespace ClassDelta

open Codec OffsetVector

/-! ## Faults -/

/-- The slots that the entries take up. -/
def slotsOf (entries : List VerbatimConstant) : Nat :=
  (entries.map fun entry => entry.constant.slots).sum

/-- The first entries are good, and what is behind them is not: either the next
entry has a fault, or it takes two slots and has only one. -/
inductive EntriesFault (free : Nat) : Bytes → (used : Nat) → PoolDefect → Prop
  | entry (entries : List VerbatimConstant) {rest : Bytes} {defect : PoolDefect}
    (hroom : slotsOf entries < free) (hfault : EntryFault rest defect) :
    EntriesFault free (entries.flatMap VerbatimConstant.write ++ rest) (slotsOf entries) defect
  | overflow (entries : List VerbatimConstant) {entry : VerbatimConstant} (rest : Bytes)
    (hwide : entry.constant.IsWide) (hlast : slotsOf entries + 1 = free) :
    EntriesFault free (entries.flatMap VerbatimConstant.write ++ (entry.write ++ rest))
      (slotsOf entries) .wideEntryOverflow

/-- The entry is the one at the index. -/
def StartsAt (entries : List VerbatimConstant) (entry : VerbatimConstant) (index : PoolIndex) :
    Prop :=
  ∃ before after, entries = before ++ entry :: after ∧ index.toNat = 1 + slotsOf before

/-- Some entry is at the index. -/
def IsUsable (entries : List VerbatimConstant) (index : PoolIndex) : Prop :=
  ∃ entry, StartsAt entries entry index

/-- The first of the indices that an entry stores which is not usable. -/
inductive Constant.FirstUnusable (usable : PoolIndex → Prop) : Constant → PoolIndex → Prop
  | text (role : TextRole) {text : PoolIndex} (h : ¬ usable text) :
    FirstUnusable usable (.named role text) text
  | owner (role : MemberRole) {owner : PoolIndex} (described : PoolIndex) (h : ¬ usable owner) :
    FirstUnusable usable (.member role owner described) owner
  | memberDescribed (role : MemberRole) {owner described : PoolIndex} (howner : usable owner)
    (h : ¬ usable described) : FirstUnusable usable (.member role owner described) described
  | name {name : PoolIndex} (descriptor : PoolIndex) (h : ¬ usable name) :
    FirstUnusable usable (.nameAndType name descriptor) name
  | descriptor {name descriptor : PoolIndex} (hname : usable name) (h : ¬ usable descriptor) :
    FirstUnusable usable (.nameAndType name descriptor) descriptor
  | target (kind : HandleKind) {target : PoolIndex} (h : ¬ usable target) :
    FirstUnusable usable (.methodHandle kind target) target
  | dynamicDescribed (role : DynamicRole) (bootstrap : UInt16) {described : PoolIndex}
    (h : ¬ usable described) : FirstUnusable usable (.dynamic role bootstrap described) described

/-- The lowest index whose entry stores an index that is not usable, and the
first such index of this entry. -/
structure FirstDangling (entries : List VerbatimConstant) (index target : PoolIndex) : Prop where
  stores : ∃ entry, StartsAt entries entry index ∧
    entry.constant.FirstUnusable (IsUsable entries) target
  lowest : ∀ lower entry, StartsAt entries entry lower → lower.toNat < index.toNat →
    ∀ stored, entry.constant.Stores stored → IsUsable entries stored

/-- Bytes that do not begin with a pool, where they go wrong and how. -/
inductive PoolFault : Bytes → PoolIndex → PoolDefect → Prop
  | noCount {bytes : Bytes} (hshort : bytes.length < 2) : PoolFault bytes 0 .truncated
  | zeroCount (rest : Bytes) : PoolFault (uint16.write 0 ++ rest) 0 .emptyPool
  | entries {count : UInt16} {bytes : Bytes} {used : Nat} {index : PoolIndex} {defect : PoolDefect}
    (hfault : EntriesFault (count.toNat - 1) bytes used defect) (hindex : index.toNat = 1 + used) :
    PoolFault (uint16.write count ++ bytes) index defect
  | dangling {count : UInt16} {entries : List VerbatimConstant} {index target : PoolIndex}
    (rest : Bytes) (hfilled : 1 + slotsOf entries = count.toNat)
    (hdangling : FirstDangling entries index target) :
    PoolFault (uint16.write count ++ (entries.flatMap VerbatimConstant.write ++ rest)) index
      (.indexOutOfRange target)

/-! ## Slots -/

theorem slotsOf_eq (entries : List VerbatimConstant) :
    slotsOf entries = totalWidth (entries.map VerbatimConstant.constant) := by
  rw [totalWidth_eq_sum, List.map_map]
  rfl

@[simp] theorem slotsOf_nil : slotsOf [] = 0 := rfl

@[simp] theorem slotsOf_cons (entry : VerbatimConstant) (entries : List VerbatimConstant) :
    slotsOf (entry :: entries) = entry.constant.slots + slotsOf entries := by
  unfold slotsOf
  rw [List.map_cons, List.sum_cons]

@[simp] theorem slotsOf_append (front back : List VerbatimConstant) :
    slotsOf (front ++ back) = slotsOf front + slotsOf back := by
  unfold slotsOf
  rw [List.map_append, List.sum_append]

/-- An entry starts before the end of the slots. -/
theorem StartsAt.lt {entries : List VerbatimConstant} {entry : VerbatimConstant} {index : PoolIndex}
    (h : StartsAt entries entry index) : index.toNat < 1 + slotsOf entries := by
  obtain ⟨before, after, rfl, hindex⟩ := h
  have hpos := entry.constant.slots_pos
  rw [slotsOf_append, slotsOf_cons]
  omega

/-! ## Entries in a row -/

namespace EntriesFault

/-- A good entry in front moves a fault back. -/
theorem cons (entry : VerbatimConstant) {free used : Nat} {bytes : Bytes} {defect : PoolDefect}
    (h : EntriesFault free bytes used defect) :
    EntriesFault (entry.constant.slots + free) (entry.write ++ bytes) (entry.constant.slots + used)
      defect := by
  cases h with
  | entry entries hroom hfault =>
    have hroom : slotsOf (entry :: entries) < entry.constant.slots + free := by
      rw [slotsOf_cons]
      omega
    have hmoved := EntriesFault.entry (entry :: entries) hroom hfault
    rw [List.flatMap_cons, List.append_assoc, slotsOf_cons] at hmoved
    exact hmoved
  | overflow entries rest hwide hlast =>
    have hlast : slotsOf (entry :: entries) + 1 = entry.constant.slots + free := by
      rw [slotsOf_cons]
      omega
    have hmoved := EntriesFault.overflow (entry :: entries) rest hwide hlast
    rw [List.flatMap_cons, List.append_assoc, slotsOf_cons] at hmoved
    exact hmoved

/-- Either entries fill the free slots, or one of them goes wrong. -/
theorem entries_or_fault (free : Nat) (bytes : Bytes) :
    (∃ (entries : List VerbatimConstant) (rest : Bytes),
      bytes = entries.flatMap VerbatimConstant.write ++ rest ∧ slotsOf entries = free) ∨
      ∃ used defect, EntriesFault free bytes used defect := by
  induction free using Nat.strongRecOn generalizing bytes with
  | ind free ih =>
    have hlater (entry : VerbatimConstant) (rest : Bytes) (later : Nat) (hlt : later < free)
        (hfree : entry.constant.slots + later = free) :
        (∃ (entries : List VerbatimConstant) (back : Bytes),
          entry.write ++ rest = entries.flatMap VerbatimConstant.write ++ back ∧
            slotsOf entries = free) ∨
          ∃ used defect, EntriesFault free (entry.write ++ rest) used defect := by
      subst hfree
      rcases ih later hlt rest with ⟨entries, back, rfl, rfl⟩ | ⟨used, defect, hfault⟩
      · refine .inl ⟨entry :: entries, back, ?_, slotsOf_cons entry entries⟩
        rw [List.flatMap_cons, List.append_assoc]
      · exact .inr ⟨_, _, hfault.cons entry⟩
    cases free with
    | zero => exact .inl ⟨[], bytes, rfl, rfl⟩
    | succ free =>
      rcases EntryFault.entry_or_fault bytes with ⟨entry, rest, rfl⟩ | ⟨defect, hfault⟩
      · rcases entry.constant.slots_eq with hone | htwo
        · exact hlater entry rest free (by omega) (by omega)
        · -- an entry of two slots does not fit in the last one
          cases free with
          | zero =>
            exact .inr ⟨_, _, .overflow [] rest (entry.constant.slots_eq_two_iff.1 htwo) rfl⟩
          | succ free => exact hlater entry rest free (by omega) (by omega)
      · exact .inr ⟨_, _, .entry [] (Nat.succ_pos free) hfault⟩

/-- Good entries are read, and nothing else is. -/
theorem readEntries_append (entries : List VerbatimConstant) (free : Nat)
    (vector : OffsetVector Constant) (position : Nat) (rest : Bytes) :
    Pool.readEntries (slotsOf entries + free) vector
        ⟨position, entries.flatMap VerbatimConstant.write ++ rest⟩ =
      Pool.readEntries free ((entries.map VerbatimConstant.constant).foldl push vector)
        ⟨position + (entries.flatMap VerbatimConstant.write).length, rest⟩ := by
  induction entries generalizing vector position with
  | nil => simp
  | cons entry entries ih =>
    have hread := entry.reads_write (UInt16.ofNat vector.next) position
      (entries.flatMap VerbatimConstant.write ++ rest)
    have hlater := ih (vector.push entry.constant) (position + entry.write.length)
    rw [Nat.add_assoc, ← List.length_append] at hlater
    rw [slotsOf_cons, List.flatMap_cons, List.append_assoc, List.map_cons, List.foldl_cons,
      ← hlater]
    rcases entry.constant.slots_eq with hone | htwo
    · have hfree : entry.constant.slots + slotsOf entries + free = slotsOf entries + free + 1 := by
        omega
      have hnotTwo : ¬ entry.constant.slots = 2 := by omega
      rw [hfree, Pool.readEntries, Stateful.bind_of_ok hread, if_neg hnotTwo]
    · have hfree : entry.constant.slots + slotsOf entries + free =
          slotsOf entries + free + 1 + 1 := by omega
      rw [hfree, Pool.readEntries, Stateful.bind_of_ok hread, if_pos htwo]

/-- Entries that fill the free slots are read. -/
theorem reads_entries (entries : List VerbatimConstant) (vector : OffsetVector Constant) :
    (Pool.readEntries (slotsOf entries) vector).Reads (entries.flatMap VerbatimConstant.write)
      ((entries.map VerbatimConstant.constant).foldl push vector) :=
  readEntries_append entries 0 vector

/-- A fault lies in the free slots. -/
theorem used_lt {free used : Nat} {bytes : Bytes} {defect : PoolDefect}
    (h : EntriesFault free bytes used defect) : used < free := by
  cases h with
  | entry entries hroom hfault => exact hroom
  | overflow entries rest hwide hlast => omega

/-- The error is the defect, at the slot behind the good entries. -/
theorem fails {free used : Nat} {bytes : Bytes} {defect : PoolDefect}
    (h : EntriesFault free bytes used defect) (vector : OffsetVector Constant) :
    (Pool.readEntries free vector).Fails bytes
      (· = .malformedPool (UInt16.ofNat (vector.next + used)) defect) := by
  cases h with
  | entry entries hroom hfault =>
    obtain ⟨later, rfl⟩ : ∃ later, free = slotsOf entries + (later + 1) :=
      ⟨free - slotsOf entries - 1, by omega⟩
    intro position
    rw [readEntries_append, Pool.readEntries, slotsOf_eq, ← next_foldl_push]
    exact (hfault.fails _).bind _ _
  | overflow entries rest hwide hlast =>
    rename_i entry
    subst hlast
    intro position
    rw [readEntries_append, Pool.readEntries, slotsOf_eq, ← next_foldl_push]
    rw [← entry.constant.slots_eq_two_iff] at hwide
    refine (entry.reads_write _).fails ?_ _
    rw [if_pos hwide]
    exact Constant.fails_fail _ _ rest

end EntriesFault

/-! ## References -/

section References

variable {entries : List VerbatimConstant} {index target : PoolIndex}

/-- The pool of the entries. -/
def poolOf (entries : List VerbatimConstant) : Pool :=
  .ofConstants (entries.map VerbatimConstant.constant)

theorem mem_layout_iff (offset position : Nat) (constant : Constant) :
    (position, constant) ∈ layout offset (entries.map VerbatimConstant.constant) ↔
      ∃ before entry after, entries = before ++ entry :: after ∧
        position = offset + slotsOf before ∧ entry.constant = constant := by
  induction entries generalizing offset with
  | nil => simp [layout]
  | cons first entries ih =>
    rw [List.map_cons, layout, List.mem_cons, ih]
    constructor
    · rintro (hfirst | ⟨before, entry, after, rfl, rfl, rfl⟩)
      · obtain ⟨rfl, rfl⟩ := Prod.mk.inj hfirst
        exact ⟨[], first, entries, rfl, rfl, rfl⟩
      · refine ⟨first :: before, entry, after, rfl, ?_, rfl⟩
        rw [slotsOf_cons, Nat.add_assoc]
        rfl
    · rintro ⟨before, entry, after, heq, rfl, rfl⟩
      cases before with
      | nil =>
        obtain ⟨rfl, rfl⟩ := List.cons.inj heq
        exact .inl rfl
      | cons head before =>
        obtain ⟨rfl, rfl⟩ := List.cons.inj heq
        refine .inr ⟨before, entry, after, rfl, ?_, rfl⟩
        rw [slotsOf_cons, Nat.add_assoc]
        rfl

theorem isIndexed_poolOf {count : UInt16} (hfilled : 1 + slotsOf entries = count.toNat) :
    (poolOf entries).IsIndexed := by
  apply Pool.isIndexed_ofConstants
  rw [← slotsOf_eq, hfilled]
  exact Nat.le_of_lt_succ count.toNat_lt

/-- The pool lists the entries where they start. -/
theorem mem_toList_poolOf (h : (poolOf entries).IsIndexed) {constant : Constant} :
    (index, constant) ∈ (poolOf entries).toList ↔
      ∃ entry, StartsAt entries entry index ∧ entry.constant = constant := by
  rw [h.mem_toList_iff, poolOf, Pool.ofConstants, toList_ofList, mem_layout_iff]
  constructor
  · rintro ⟨before, entry, after, heq, hposition, hconstant⟩
    exact ⟨entry, ⟨before, after, heq, hposition⟩, hconstant⟩
  · rintro ⟨entry, ⟨before, after, heq, hposition⟩, hconstant⟩
    exact ⟨before, entry, after, heq, hposition, hconstant⟩

theorem isUsable_iff (h : (poolOf entries).IsIndexed) :
    IsUsable entries index ↔ ((poolOf entries).get? index).isNone = false := by
  rw [← Option.not_isSome, Bool.not_eq_false', Pool.isSome_get?_iff h]
  constructor
  · rintro ⟨entry, hstarts⟩
    exact ⟨entry.constant, (mem_toList_poolOf h).2 ⟨entry, hstarts, rfl⟩⟩
  · rintro ⟨constant, hmem⟩
    obtain ⟨entry, hstarts, -⟩ := (mem_toList_poolOf h).1 hmem
    exact ⟨entry, hstarts⟩

theorem find?_pair {missing : PoolIndex → Bool} {first second : PoolIndex}
    (h : [first, second].find? missing = some target) :
    first = target ∨ missing first = false ∧ second = target := by
  rw [List.find?_cons] at h
  cases hfirst : missing first with
  | true =>
    rw [hfirst] at h
    exact .inl (Option.some.inj h)
  | false =>
    rw [hfirst] at h
    exact .inr ⟨rfl, (List.mem_singleton.1 (List.mem_of_find?_eq_some h)).symm⟩

/-- The references of an entry are checked in the order in which it stores them. -/
theorem find?_references_iff {constant : Constant} (missing : PoolIndex → Bool) :
    constant.references.find? missing = some target ↔
      constant.FirstUnusable (fun index => missing index = false) target := by
  constructor
  · intro hfind
    have hmissing : ¬ missing target = false := by simp [List.find?_some hfind]
    have hstored := List.mem_of_find?_eq_some hfind
    cases constant with
    | utf8 _ | integer _ | float _ | long _ | double _ => cases hfind
    | named role text =>
      obtain rfl := List.mem_singleton.1 hstored
      exact .text role hmissing
    | member role owner described =>
      rcases find?_pair hfind with rfl | ⟨howner, rfl⟩
      · exact .owner role described hmissing
      · exact .memberDescribed role howner hmissing
    | nameAndType name descriptor =>
      rcases find?_pair hfind with rfl | ⟨hname, rfl⟩
      · exact .name descriptor hmissing
      · exact .descriptor hname hmissing
    | methodHandle kind place =>
      obtain rfl := List.mem_singleton.1 hstored
      exact .target kind hmissing
    | dynamic role bootstrap described =>
      obtain rfl := List.mem_singleton.1 hstored
      exact .dynamicDescribed role bootstrap hmissing
  · intro hfirst
    cases hfirst <;> simp_all [Constant.references]

/-- Nothing is found in an entry that stores usable indices only. -/
theorem find?_references_eq_none_iff {constant : Constant} (missing : PoolIndex → Bool) :
    constant.references.find? missing = none ↔
      ∀ stored, constant.Stores stored → missing stored = false := by
  simp only [List.find?_eq_none, Bool.not_eq_true, Constant.stores_iff]

/-- In ascending order, what is lower comes before. -/
theorem mem_before_iff {before after : List (PoolIndex × Constant)} {middle : PoolIndex × Constant}
    (h : (before ++ middle :: after).Pairwise fun first later => first.1 < later.1)
    {listed : PoolIndex × Constant} (hmem : listed ∈ before ++ middle :: after) :
    listed ∈ before ↔ listed.1.toNat < middle.1.toNat := by
  obtain ⟨-, hback, hcross⟩ := List.pairwise_append.1 h
  constructor
  · intro hbefore
    exact UInt16.lt_iff_toNat_lt.1 (hcross listed hbefore middle List.mem_cons_self)
  · intro hlower
    rcases List.mem_append.1 hmem with hbefore | hrest
    · exact hbefore
    rcases List.mem_cons.1 hrest with rfl | hafter
    · exact absurd hlower (Nat.lt_irrefl _)
    · have hhigher := UInt16.lt_iff_toNat_lt.1 ((List.pairwise_cons.1 hback).1 listed hafter)
      omega

/-- The check of a pool finds the first dangling reference. -/
theorem danglingReference?_poolOf_iff (h : (poolOf entries).IsIndexed) :
    (poolOf entries).danglingReference? = some (index, target) ↔
      FirstDangling entries index target := by
  have husable : (fun index => ((poolOf entries).get? index).isNone = false) = IsUsable entries :=
    funext fun index => propext (isUsable_iff h).symm
  have hascending := h.indexLaws.ascending
  unfold Pool.danglingReference?
  rw [List.findSome?_eq_some_iff]
  constructor
  · rintro ⟨before, ⟨place, constant⟩, after, hlist, hfound, hbefore⟩
    obtain ⟨target', hfind, heq⟩ := Option.map_eq_some_iff.1 hfound
    obtain ⟨rfl, rfl⟩ := Prod.mk.inj heq
    rw [hlist] at hascending
    rw [find?_references_iff, husable] at hfind
    constructor
    · obtain ⟨entry, hstarts, rfl⟩ :=
        (mem_toList_poolOf h).1 (hlist ▸ List.mem_append_right _ List.mem_cons_self)
      exact ⟨entry, hstarts, hfind⟩
    · intro lower earlier hstarts hlower stored hstores
      have hlisted := (mem_toList_poolOf h).2 ⟨earlier, hstarts, rfl⟩
      rw [hlist] at hlisted
      have hnone := hbefore _ ((mem_before_iff hascending hlisted).2 hlower)
      rw [Option.map_eq_none_iff, find?_references_eq_none_iff] at hnone
      exact (isUsable_iff h).2 (hnone stored hstores)
  · intro hdangling
    obtain ⟨entry, hstarts, hfirst⟩ := hdangling.stores
    have hlisted := (mem_toList_poolOf h).2 ⟨entry, hstarts, rfl⟩
    obtain ⟨before, after, hlist⟩ := List.append_of_mem hlisted
    rw [← husable, ← find?_references_iff] at hfirst
    refine ⟨before, _, after, hlist, ?_, ?_⟩
    · exact Option.map_eq_some_iff.2 ⟨target, hfirst, rfl⟩
    · rintro ⟨lower, constant⟩ hmem
      rw [hlist] at hascending
      have hfront := List.mem_append_left ((index, entry.constant) :: after) hmem
      have hlower := (mem_before_iff hascending hfront).1 hmem
      rw [← hlist, mem_toList_poolOf h] at hfront
      obtain ⟨earlier, hstarts, rfl⟩ := hfront
      rw [Option.map_eq_none_iff, find?_references_eq_none_iff]
      intro stored hstores
      exact (isUsable_iff h).1 (hdangling.lowest lower earlier hstarts hlower stored hstores)

end References

/-! ## The reader -/

namespace PoolFault

variable {bytes : Bytes} {index : PoolIndex} {defect : PoolDefect}

/-- Behind a count that is not zero, the entries are read and then checked. -/
theorem fails_entries {count : UInt16} {rest : Bytes} (hpositive : count ≠ 0)
    (h : (Pool.readEntries (count.toNat - 1) Pool.empty.entries >>= fun entries =>
      match (Pool.mk entries).danglingReference? with
      | some (index, target) => Constant.fail index (.indexOutOfRange target)
      | none => pure (Pool.mk entries)).Fails rest (· = .malformedPool index defect)) :
    Pool.read.Fails (uint16.write count ++ rest) (· = .malformedPool index defect) := by
  apply ((roundTrips_uint16.reads count trivial).mapError (Constant.blame 0)).fails
  rw [if_neg hpositive]
  exact h

/-- Every fault is reported, with its index. -/
theorem fails (h : PoolFault bytes index defect) :
    Pool.read.Fails bytes (· = .malformedPool index defect) := by
  cases h with
  | noCount hshort =>
    have hblamed : (Reader.mapError (Constant.blame 0) uint16.read).Fails bytes
        (· = .malformedPool 0 .truncated) :=
      (isTotal_uint16.fails bytes hshort).mapError fun _ => EntryFault.blames_truncated 0
    exact hblamed.bind _
  | zeroCount rest =>
    apply ((roundTrips_uint16.reads 0 trivial).mapError (Constant.blame 0)).fails
    exact Constant.fails_fail 0 .emptyPool rest
  | @entries count bytes used _ _ hfault hindex =>
    have hpositive : count ≠ 0 := by
      rintro rfl
      exact absurd hfault.used_lt (Nat.not_lt_zero used)
    have hplace : UInt16.ofNat (Pool.empty.entries.next + used) = index := by
      rw [show Pool.empty.entries.next = 1 from rfl, ← hindex, UInt16.ofNat_toNat]
    apply fails_entries hpositive
    rw [← hplace]
    exact (hfault.fails Pool.empty.entries).bind _
  | @dangling count entries _ target rest hfilled hdangling =>
    have hpositive : count ≠ 0 := by
      rintro rfl
      exact absurd hfilled (by simp)
    have hfree : count.toNat - 1 = slotsOf entries := by omega
    have hfound := (danglingReference?_poolOf_iff (isIndexed_poolOf hfilled)).2 hdangling
    apply fails_entries hpositive
    rw [hfree]
    apply (EntriesFault.reads_entries entries Pool.empty.entries).fails
    have hpool : Pool.mk ((entries.map VerbatimConstant.constant).foldl push Pool.empty.entries) =
        poolOf entries := rfl
    rw [hpool, hfound]
    exact Constant.fails_fail index (.indexOutOfRange target) rest

/-- A count is in the first two bytes. -/
theorem not_countMissing {count : UInt16} {rest : Bytes} (hpositive : count ≠ 0) :
    ¬ (uint16.write count ++ rest).length < 2 ∧
      ∀ rest', uint16.write count ++ rest ≠ uint16.write 0 ++ rest' := by
  constructor
  · rw [List.length_append, hasFixedSize_uint16]
    exact Nat.not_lt.2 (Nat.le_add_right 2 rest.length)
  · intro rest' heq
    have hwritten := (List.append_inj heq (length_write_uint16 _ _)).1
    exact hpositive (roundTrips_uint16.write_injective trivial trivial hwritten)

/-- Index 0 blames the count, and every other index is one that the count has
room for. -/
structure IsPlaced (bytes : Bytes) (index : PoolIndex) (defect : PoolDefect) : Prop where
  eq_zero_iff : index = 0 ↔ bytes.length < 2 ∧ defect = .truncated ∨
    (∃ rest, bytes = uint16.write 0 ++ rest) ∧ defect = .emptyPool
  bounds : index ≠ 0 → ∃ count rest, bytes = uint16.write count ++ rest ∧ 1 ≤ index.toNat ∧
    index.toNat < count.toNat

theorem isPlaced_of_bounds {count : UInt16} {rest : Bytes} (hlow : 1 ≤ index.toNat)
    (hhigh : index.toNat < count.toNat) : IsPlaced (uint16.write count ++ rest) index defect := by
  have hindex : index ≠ 0 := by
    rintro rfl
    exact absurd hlow (by decide)
  have hcount : count ≠ 0 := by
    rintro rfl
    exact absurd hhigh (Nat.not_lt_zero _)
  obtain ⟨hlong, hother⟩ := @not_countMissing count rest hcount
  constructor
  · refine iff_of_false hindex ?_
    rintro (⟨hshort, -⟩ | ⟨⟨rest', heq⟩, -⟩)
    · exact hlong hshort
    · exact hother rest' heq
  · intro _
    exact ⟨count, rest, rfl, hlow, hhigh⟩

theorem isPlaced (h : PoolFault bytes index defect) : IsPlaced bytes index defect := by
  cases h with
  | noCount hshort => exact ⟨iff_of_true rfl (.inl ⟨hshort, rfl⟩), fun hne => absurd rfl hne⟩
  | zeroCount rest => exact ⟨iff_of_true rfl (.inr ⟨⟨rest, rfl⟩, rfl⟩), fun hne => absurd rfl hne⟩
  | entries hfault hindex =>
    have hroom := hfault.used_lt
    exact isPlaced_of_bounds (by omega) (by omega)
  | dangling rest hfilled hdangling =>
    obtain ⟨entry, hstarts, -⟩ := hdangling.stores
    have hlt := hstarts.lt
    obtain ⟨before, after, -, hindex⟩ := hstarts
    exact isPlaced_of_bounds (by omega) (by omega)

end PoolFault

namespace Pool

/-- Entries that fill the declared slots are a pool, if no reference dangles. -/
theorem reads_entries {count : UInt16} {entries : List VerbatimConstant}
    (hfilled : 1 + slotsOf entries = count.toNat)
    (hnone : (poolOf entries).danglingReference? = none) :
    read.Reads (uint16.write count ++ entries.flatMap VerbatimConstant.write) (poolOf entries) := by
  have hpositive : count ≠ 0 := by
    rintro rfl
    exact absurd hfilled (by simp)
  have hfree : count.toNat - 1 = slotsOf entries := by omega
  have hpool : Pool.mk ((entries.map VerbatimConstant.constant).foldl OffsetVector.push
      empty.entries) = poolOf entries := rfl
  apply ((roundTrips_uint16.reads count trivial).mapError (Constant.blame 0)).bind
  rw [if_neg hpositive, hfree]
  apply (EntriesFault.reads_entries entries empty.entries).bind_nil
  simp only [hpool, hnone]
  exact Reader.reads_pure (poolOf entries)

/-- Bytes begin with a pool or have a fault. -/
theorem read_or_fault (cursor : Cursor) :
    (∃ pool after, read cursor = .ok pool after) ∨
      ∃ index defect, PoolFault cursor.rest index defect := by
  obtain ⟨position, bytes⟩ := cursor
  by_cases hshort : bytes.length < 2
  · exact .inr ⟨0, _, .noCount hshort⟩
  obtain ⟨count, rest, rfl⟩ :=
    writesBack_uint16.exists_write isTotal_uint16 (Nat.le_of_not_lt hshort)
  by_cases hzero : count = 0
  · subst hzero
    exact .inr ⟨0, _, .zeroCount rest⟩
  have hpositive : count.toNat ≠ 0 := fun heq => hzero (UInt16.toNat_inj.1 heq)
  rcases EntriesFault.entries_or_fault (count.toNat - 1) rest with
    ⟨entries, later, rfl, hslots⟩ | ⟨used, defect, hfault⟩
  · have hfilled : 1 + slotsOf entries = count.toNat := by omega
    have hindexed := isIndexed_poolOf hfilled
    cases hdangling : (poolOf entries).danglingReference? with
    | some found =>
      exact .inr ⟨found.1, _, .dangling later hfilled
        ((danglingReference?_poolOf_iff hindexed).1 hdangling)⟩
    | none =>
      have hread := reads_entries hfilled hdangling position later
      rw [List.append_assoc] at hread
      exact .inl ⟨_, _, hread⟩
  · have hindex : (UInt16.ofNat (1 + used)).toNat = 1 + used := by
      have hroom := hfault.used_lt
      have hlt := count.toNat_lt
      rw [UInt16.toNat_ofNat']
      omega
    exact .inr ⟨_, defect, .entries hfault hindex⟩

/-- A pool that is not read is malformed, and never anything else; the error names
the first fault of the bytes.  Its index is 0 exactly if there is no count or the
count is zero, and lies below the count otherwise. -/
theorem read_eq_error_iff (cursor : Cursor) :
    (∀ error, (∃ after, read cursor = .error error after) ↔
      ∃ index defect, error = .malformedPool index defect ∧ PoolFault cursor.rest index defect) ∧
    ∀ index defect, PoolFault cursor.rest index defect →
      PoolFault.IsPlaced cursor.rest index defect := by
  refine ⟨fun error => ?_, fun index defect hfault => hfault.isPlaced⟩
  constructor
  · rintro ⟨after, hread⟩
    rcases read_or_fault cursor with ⟨pool, later, hok⟩ | ⟨index, defect, hfault⟩
    · rw [hread] at hok
      contradiction
    · obtain ⟨_, later, herror, rfl⟩ := hfault.fails cursor.position
      obtain ⟨rfl, -⟩ := EStateM.Result.error.inj (hread.symm.trans herror)
      exact ⟨index, defect, rfl, hfault⟩
  · rintro ⟨index, defect, rfl, hfault⟩
    obtain ⟨_, after, herror, rfl⟩ := hfault.fails cursor.position
    exact ⟨after, herror⟩

/-- The tag of the second entry is unknown, and that comes first: whether the
first entry refers to anything is not looked at. -/
theorem read_eq_error_iff_unknownTag :
    let bytes : Bytes := [0, 3, 7, 0, 9, 99]
    read (.start bytes) = .error (.malformedPool 2 (.unknownTag 99)) ⟨6, []⟩ ∧
      PoolFault bytes 2 (.unknownTag 99) ∧
      ∃ count rest, bytes = uint16.write count ++ rest ∧ 1 ≤ (2 : PoolIndex).toNat ∧
        (2 : PoolIndex).toNat < count.toNat := by
  intro bytes
  obtain ⟨herror, hplaced⟩ := read_eq_error_iff (.start bytes)
  have hread : read (.start bytes) = .error (.malformedPool 2 (.unknownTag 99)) ⟨6, []⟩ := rfl
  obtain ⟨index, defect, heq, hfault⟩ := (herror _).1 ⟨_, hread⟩
  obtain ⟨rfl, rfl⟩ := ParseError.malformedPool.inj heq
  exact ⟨hread, hfault, (hplaced 2 _ hfault).bounds (by decide)⟩

end Pool

end ClassDelta
