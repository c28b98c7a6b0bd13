import ClassDelta.Pool.Basic
import ClassDelta.Proofs.OffsetVector
import ClassDelta.Proofs.Pool.Constant

/-!
# Reading and writing constant pools

A pool that fits has its entries one behind the other from index 1 on, keeps
within the slots that 16 bits can count, refers to entries of its own only,
and holds no text that is too long (`Pool.Fits`).  These are the pools that
read back from their written form, and the only ones that are read
(`Pool.reads_write`, `Pool.returns_read`).

`Pool.get?_eq_some_iff` says what a look-up finds in such a pool, so that
nothing above has to know of offsets and bisection.
-/

namespace ClassDelta.Pool

open OffsetVector

/-! ## The shape of a pool -/

/-- The entries without their indices. -/
def constants (pool : Pool) : List Constant := pool.entries.toList.map Prod.snd

/-- The entries lie one behind the other, and a 16-bit number can count the
slots. -/
structure IsIndexed (pool : Pool) : Prop where
  consecutive : pool.entries = ofList 1 pool.constants
  next_le : pool.entries.next ≤ 65535

/-- The pools that can be written without loss. -/
structure Fits (pool : Pool) : Prop extends pool.IsIndexed where
  /-- Every reference inside of the pool leads to an entry. -/
  linked : ∀ constant ∈ pool.constants, ∀ index ∈ constant.references,
    ∃ target, (index, target) ∈ pool.toList
  entriesFit : ∀ constant ∈ pool.constants, constant.Fits

/-- The pool that holds the entries in this order. -/
def ofConstants (constants : List Constant) : Pool := ⟨ofList 1 constants⟩

/-- A reader fills a pool entry by entry. -/
theorem foldl_push_empty (entries : List Constant) :
    (⟨entries.foldl push empty.entries⟩ : Pool) = ofConstants entries := rfl

@[simp] theorem constants_ofConstants (entries : List Constant) :
    (ofConstants entries).constants = entries := by
  simp [constants, ofConstants]

@[simp] theorem next_ofConstants (entries : List Constant) :
    (ofConstants entries).entries.next = 1 + totalWidth entries := by
  simp [ofConstants]

theorem IsIndexed.eq_ofConstants {pool : Pool} (h : pool.IsIndexed) :
    pool = ofConstants pool.constants := by
  obtain ⟨entries⟩ := pool
  exact congrArg Pool.mk h.consecutive

theorem isIndexed_ofConstants {entries : List Constant} (h : 1 + totalWidth entries ≤ 65535) :
    (ofConstants entries).IsIndexed where
  consecutive := by
    rw [constants_ofConstants]
    rfl
  next_le := by
    rw [next_ofConstants]
    exact h

theorem IsIndexed.ascending {pool : Pool} (h : pool.IsIndexed) : pool.entries.Ascending := by
  rw [h.consecutive]
  exact ascending_ofList 1 fun constant _ => constant.slots_pos

/-- The 16-bit slot count holds the next free offset without loss. -/
theorem toNat_slotCount_of_le {pool : Pool} (h : pool.entries.next ≤ 65535) :
    pool.slotCount.toNat = pool.entries.next := by
  rw [slotCount, UInt16.toNat_ofNat']
  omega

theorem IsIndexed.toNat_slotCount {pool : Pool} (h : pool.IsIndexed) :
    pool.slotCount.toNat = pool.entries.next :=
  toNat_slotCount_of_le h.next_le

theorem IsIndexed.toList_entries {pool : Pool} (h : pool.IsIndexed) :
    pool.entries.toList = layout 1 pool.constants := by
  rw [h.consecutive, toList_ofList]

theorem IsIndexed.next_eq {pool : Pool} (h : pool.IsIndexed) :
    pool.entries.next = 1 + totalWidth pool.constants := by
  rw [h.consecutive, next_ofList]

/-- An entry lies behind index 0 and in front of the next free slot. -/
theorem IsIndexed.offset_bounds {pool : Pool} (h : pool.IsIndexed) {offset : Nat}
    {constant : Constant} (hmem : (offset, constant) ∈ pool.entries.toList) :
    1 ≤ offset ∧ offset + constant.slots ≤ pool.entries.next := by
  rw [h.consecutive, toList_ofList] at hmem
  rw [h.consecutive, next_ofList]
  exact layout_bounds hmem

/-! ## Look-ups -/

/-- Indices hold the offsets of entries without loss. -/
theorem IsIndexed.mem_toList_iff {pool : Pool} (h : pool.IsIndexed) {index : PoolIndex}
    {constant : Constant} :
    (index, constant) ∈ pool.toList ↔ (index.toNat, constant) ∈ pool.entries.toList := by
  unfold toList
  rw [List.mem_map]
  constructor
  · rintro ⟨⟨offset, constant'⟩, hmem, heq⟩
    cases heq
    have hbounds := h.offset_bounds hmem
    have hnext := h.next_le
    have hoffset : (UInt16.ofNat offset).toNat = offset := by
      rw [UInt16.toNat_ofNat']
      omega
    rw [hoffset]
    exact hmem
  · intro hmem
    exact ⟨(index.toNat, constant), hmem, by simp⟩

/-- A look-up finds what the pool lists at the index. -/
theorem get?_eq_some_iff {pool : Pool} (h : pool.IsIndexed) {index : PoolIndex}
    {constant : Constant} : pool.get? index = some constant ↔ (index, constant) ∈ pool.toList := by
  rw [h.mem_toList_iff, ← find?_eq_some_iff h.ascending, get?]
  split
  · rename_i hzero
    subst hzero
    constructor
    · intro hnone
      cases hnone
    · intro hfind
      rw [find?_eq_some_iff h.ascending] at hfind
      have hbounds := h.offset_bounds hfind
      exact absurd hbounds.1 (by decide)
  · exact Iff.rfl

/-- An index is usable when the pool lists an entry there. -/
theorem isSome_get?_iff {pool : Pool} (h : pool.IsIndexed) {index : PoolIndex} :
    (pool.get? index).isSome ↔ ∃ target, (index, target) ∈ pool.toList := by
  rw [Option.isSome_iff_exists]
  exact exists_congr fun target => get?_eq_some_iff h

theorem mem_constants_iff {pool : Pool} {constant : Constant} :
    constant ∈ pool.constants ↔ ∃ index, (index, constant) ∈ pool.toList := by
  unfold constants toList
  simp only [List.mem_map]
  constructor
  · rintro ⟨⟨offset, constant'⟩, hmem, rfl⟩
    exact ⟨UInt16.ofNat offset, (offset, constant'), hmem, rfl⟩
  · rintro ⟨index, entry, hmem, heq⟩
    cases heq
    exact ⟨entry, hmem, rfl⟩

/-- A pool has a dangling reference unless all of its references lead to
entries. -/
theorem danglingReference?_eq_none_iff {pool : Pool} (h : pool.IsIndexed) :
    pool.danglingReference? = none ↔
      ∀ constant ∈ pool.constants, ∀ index ∈ constant.references,
        ∃ target, (index, target) ∈ pool.toList := by
  have hentry (index : PoolIndex) (constant : Constant) :
      ((constant.references.find? fun target => (pool.get? target).isNone).map fun target =>
        (index, target)) = none ↔
      ∀ index ∈ constant.references, ∃ target, (index, target) ∈ pool.toList := by
    rw [Option.map_eq_none_iff, List.find?_eq_none]
    refine forall_congr' fun target => forall_congr' fun _ => ?_
    rw [← isSome_get?_iff h, Option.isNone_iff_eq_none, Option.isSome_iff_ne_none]
  unfold danglingReference?
  rw [List.findSome?_eq_none_iff]
  constructor
  · intro hnone constant hmem
    obtain ⟨index, hlisted⟩ := mem_constants_iff.1 hmem
    exact (hentry index constant).1 (hnone (index, constant) hlisted)
  · intro hlinked entry hlisted
    exact (hentry entry.1 entry.2).2 (hlinked entry.2 (mem_constants_iff.2 ⟨entry.1, hlisted⟩))

/-! ## Writing, then reading -/

/-- Entries that fit fill exactly the slots they take up. -/
theorem reads_readEntries (entries : OffsetVector Constant) (values : List Constant)
    (hfit : ∀ constant ∈ values, constant.Fits) :
    (readEntries (totalWidth values) entries).Reads (values.flatMap Constant.write)
      (values.foldl push entries) := by
  induction values generalizing entries with
  | nil => exact Reader.reads_pure entries
  | cons constant values ih =>
    have hread := Constant.reads_write (UInt16.ofNat entries.next) (hfit constant (by simp))
    have hlater := ih (entries.push constant) fun later hmem => hfit later (by simp [hmem])
    have hwidth : Width.width constant = constant.slots := rfl
    rw [totalWidth_cons, hwidth, List.flatMap_cons, List.foldl_cons]
    rcases constant.slots_eq with hone | htwo
    · have hfree : constant.slots + totalWidth values = totalWidth values + 1 := by omega
      have hnotTwo : ¬ constant.slots = 2 := by omega
      rw [hfree, readEntries]
      refine hread.bind ?_
      rw [if_neg hnotTwo]
      exact hlater
    · have hfree : constant.slots + totalWidth values = totalWidth values + 1 + 1 := by omega
      rw [hfree, readEntries]
      refine hread.bind ?_
      rw [if_pos htwo]
      exact hlater

theorem write_eq (pool : Pool) :
    pool.write = Codec.uint16.write pool.slotCount ++ pool.constants.flatMap Constant.write := by
  rw [write, constants, List.flatMap_map]

/-- A pool that fits reads back. -/
theorem reads_write {pool : Pool} (h : pool.Fits) : Pool.read.Reads pool.write pool := by
  have hnext := h.next_eq
  have hcount := h.toNat_slotCount
  have hpositive : ¬ pool.slotCount = 0 := by
    rw [← UInt16.toNat_inj, hcount, hnext, UInt16.toNat_zero]
    omega
  have hfree : pool.slotCount.toNat - 1 = totalWidth pool.constants := by omega
  rw [write_eq]
  refine ((Codec.roundTrips_uint16.reads pool.slotCount trivial).mapError _).bind ?_
  rw [if_neg hpositive, hfree]
  refine (reads_readEntries empty.entries pool.constants h.entriesFit).bind_nil ?_
  have hpool : (⟨pool.constants.foldl push empty.entries⟩ : Pool) = pool :=
    h.eq_ofConstants.symm
  simp only [hpool, (danglingReference?_eq_none_iff h.toIsIndexed).2 h.linked]
  exact Reader.reads_pure pool

/-! ## What is read -/

/-- The entries that are read fit, and fill the slots that were free. -/
theorem returns_readEntries (free : Nat) (entries : OffsetVector Constant) :
    (readEntries free entries).Returns fun result =>
      ∃ values, result = values.foldl push entries ∧ totalWidth values = free ∧
        ∀ constant ∈ values, constant.Fits := by
  induction free using Nat.strongRecOn generalizing entries with
  | ind free ih =>
    have hlater (constant : Constant) (hfit : constant.Fits) (rest : Nat) (hrest : rest < free)
        (hfree : free = constant.slots + rest) :
        (readEntries rest (entries.push constant)).Returns fun result =>
          ∃ values, result = values.foldl push entries ∧ totalWidth values = free ∧
            ∀ constant ∈ values, constant.Fits := by
      refine (ih rest hrest (entries.push constant)).mono ?_
      rintro _ ⟨values, rfl, hwidth, hall⟩
      have hconstant : Width.width constant = constant.slots := rfl
      refine ⟨constant :: values, rfl, by rw [totalWidth_cons, hwidth, hconstant, hfree], ?_⟩
      intro later hmem
      rcases List.mem_cons.1 hmem with rfl | hmem
      · exact hfit
      · exact hall later hmem
    cases free with
    | zero => exact Reader.returns_pure ⟨[], rfl, rfl, by simp⟩
    | succ free =>
      rw [readEntries]
      refine (Constant.returns_read _).bind fun constant hfit => ?_
      split
      · rename_i htwo
        cases free with
        | zero => exact Constant.returns_fail _ _
        | succ free => exact hlater constant hfit free (by omega) (by omega)
      · rename_i hnotTwo
        have hone := constant.slots_eq
        exact hlater constant hfit free (by omega) (by omega)

/-- Only pools that fit are read. -/
theorem returns_read : Pool.read.Returns Fits := by
  refine (Reader.returns_any _).bind fun count _ => ?_
  split
  · exact Constant.returns_fail _ _
  · rename_i hpositive
    refine (returns_readEntries _ _).bind ?_
    rintro _ ⟨values, rfl, hwidth, hfit⟩
    have hindexed : (ofConstants values).IsIndexed := by
      refine isIndexed_ofConstants ?_
      have hlt := count.toNat_lt
      omega
    simp only [foldl_push_empty]
    split
    · exact Constant.returns_fail _ _
    · rename_i hnone
      refine Reader.returns_pure ⟨hindexed, (danglingReference?_eq_none_iff hindexed).1 hnone, ?_⟩
      rw [constants_ofConstants]
      exact hfit

end ClassDelta.Pool
