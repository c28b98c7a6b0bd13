import ClassDelta.Proofs.Pool.Interning

/-!
# Which indices hold an entry

The slots of a pool are used up without a gap: a slot in use is the first slot
of an entry or the second slot of a wide one, and never both.  Look-ups find the
former and nothing else.

`Pool.IsIndexed.indexLaws` derives all of this from the fact that the entries lie
one behind the other.  That is so for the pools that are read and for those that
are built, which `Pool.indexLaws_read_and_after` says of both.
-/

namespace ClassDelta

/-! ## Declared counts -/

namespace Codec

/-- A 16-bit number that was read stands in the next two bytes. -/
theorem uint16_read_eq_ok {cursor after : Cursor} {number : UInt16}
    (h : uint16.read cursor = .ok number after) :
    ∃ high low later, cursor.rest = high :: low :: later ∧
      number.toNat = 256 * high.toNat + low.toNat := by
  obtain ⟨position, rest⟩ := cursor
  rcases rest with _ | ⟨high, _ | ⟨low, later⟩⟩
  · cases h
  · cases h
  · cases h
    refine ⟨high, low, later, rfl, ?_⟩
    have hhigh := high.toNat_lt
    have hlow := low.toNat_lt
    show (UInt16.ofNat ((0 * 256 + high.toNat) * 256 + low.toNat)).toNat = _
    rw [UInt16.toNat_ofNat']
    omega

end Codec

/-! ## Entries and holes -/

namespace Constant

/-- The entry takes up two slots. -/
def IsWide : Constant → Prop
  | long _ | double _ => True
  | _ => False

theorem slots_eq_two_iff (constant : Constant) : constant.slots = 2 ↔ constant.IsWide := by
  cases constant <;> simp [slots, IsWide]

end Constant

namespace Pool

variable {pool : Pool} {index : PoolIndex}

/-- An entry starts at the index. -/
def HasEntry (pool : Pool) (index : PoolIndex) : Prop :=
  ∃ constant, (index, constant) ∈ pool.toList

/-- The index is the second slot of a wide entry. -/
def HasHole (pool : Pool) (index : PoolIndex) : Prop :=
  ∃ first constant, (first, constant) ∈ pool.toList ∧ constant.IsWide ∧
    index.toNat = first.toNat + 1

/-- How a pool uses its indices. -/
structure IndexLaws (pool : Pool) : Prop where
  /-- The slot count is 1 more than what the entries take up; 16 bits hold it. -/
  slotCount_eq : pool.slotCount.toNat = 1 + (pool.constants.map Constant.slots).sum
  /-- Behind index 0, all slots up to the slot count are in use. -/
  used_iff : ∀ index : PoolIndex, 1 ≤ index.toNat ∧ index.toNat < pool.slotCount.toNat ↔
    pool.HasEntry index ∨ pool.HasHole index
  /-- No slot is used twice. -/
  separate : ∀ index, ¬ (pool.HasEntry index ∧ pool.HasHole index)
  /-- Look-ups find the entries and nothing else. -/
  isSome_get?_iff : ∀ index, (pool.get? index).isSome ↔ pool.HasEntry index
  get?_eq_none : ∀ index : PoolIndex,
    index = 0 ∨ pool.HasHole index ∨ pool.slotCount.toNat ≤ index.toNat → pool.get? index = none
  /-- The entries are listed in order, each once and at the index where it is
  found. -/
  map_snd_toList : pool.toList.map Prod.snd = pool.constants
  ascending : pool.toList.Pairwise fun first later => first.1 < later.1
  mem_toList_iff : ∀ index constant,
    (index, constant) ∈ pool.toList ↔ pool.get? index = some constant

/-! ## Pools without gaps -/

namespace IsIndexed

theorem slotCount_eq (h : pool.IsIndexed) :
    pool.slotCount.toNat = 1 + (pool.constants.map Constant.slots).sum := by
  rw [h.toNat_slotCount, h.next_eq, OffsetVector.totalWidth_eq_sum]
  rfl

/-- A slot in use is the first or the second slot of an entry. -/
theorem used_iff (h : pool.IsIndexed) (index : PoolIndex) :
    1 ≤ index.toNat ∧ index.toNat < pool.slotCount.toNat ↔
      pool.HasEntry index ∨ pool.HasHole index := by
  rw [h.toNat_slotCount]
  constructor
  · rintro ⟨hlow, hhigh⟩
    rw [h.next_eq] at hhigh
    obtain ⟨⟨offset, constant⟩, hmem, hstart, hend⟩ := OffsetVector.exists_mem_layout hlow hhigh
    rw [← h.toList_entries] at hmem
    have hwidth : index.toNat < offset + constant.slots := hend
    have hstart : offset ≤ index.toNat := hstart
    have hoffset : (UInt16.ofNat offset).toNat = offset := by
      have hlt := index.toNat_lt
      rw [UInt16.toNat_ofNat']
      omega
    have hlisted : (UInt16.ofNat offset, constant) ∈ pool.toList :=
      h.mem_toList_iff.2 (hoffset.symm ▸ hmem)
    by_cases hfirst : offset = index.toNat
    · subst hfirst
      rw [UInt16.ofNat_toNat] at hlisted
      exact .inl ⟨constant, hlisted⟩
    · have hslots := constant.slots_eq
      have hwide : constant.slots = 2 := by omega
      refine .inr ⟨UInt16.ofNat offset, constant, hlisted, constant.slots_eq_two_iff.1 hwide, ?_⟩
      omega
  · rintro (⟨constant, hlisted⟩ | ⟨first, constant, hlisted, hwide, hindex⟩)
    · have hbounds := h.offset_bounds (h.mem_toList_iff.1 hlisted)
      have hslots := constant.slots_pos
      omega
    · have hbounds := h.offset_bounds (h.mem_toList_iff.1 hlisted)
      have hslots := constant.slots_eq_two_iff.2 hwide
      omega

/-- The second slot of an entry is not the first slot of another one. -/
theorem separate (h : pool.IsIndexed) (index : PoolIndex) :
    ¬ (pool.HasEntry index ∧ pool.HasHole index) := by
  rintro ⟨⟨constant, hlisted⟩, first, wide, hlisted', hwide, hindex⟩
  have hmem := h.mem_toList_iff.1 hlisted
  have hmem' := h.mem_toList_iff.1 hlisted'
  rw [h.toList_entries] at hmem hmem'
  have hextent : index.toNat ≤ index.toNat ∧ index.toNat < index.toNat + constant.slots :=
    ⟨Nat.le_refl _, Nat.lt_add_of_pos_right constant.slots_pos⟩
  have hextent' : first.toNat ≤ index.toNat ∧ index.toNat < first.toNat + wide.slots := by
    have hslots := wide.slots_eq_two_iff.2 hwide
    omega
  have hsame := OffsetVector.eq_of_mem_layout hmem hmem' hextent hextent'
  have hoffset : index.toNat = first.toNat := congrArg Prod.fst hsame
  omega

theorem isSome_get?_iff_hasEntry (h : pool.IsIndexed) (index : PoolIndex) :
    (pool.get? index).isSome ↔ pool.HasEntry index :=
  Pool.isSome_get?_iff h

/-- What is not in use is not found, and neither is a hole. -/
theorem get?_eq_none (h : pool.IsIndexed) (index : PoolIndex)
    (hunused : index = 0 ∨ pool.HasHole index ∨ pool.slotCount.toNat ≤ index.toNat) :
    pool.get? index = none := by
  rw [← Option.not_isSome_iff_eq_none, h.isSome_get?_iff_hasEntry]
  intro hentry
  have hused := (h.used_iff index).2 (.inl hentry)
  rcases hunused with rfl | hhole | hbeyond
  · exact absurd hused.1 (by decide)
  · exact h.separate index ⟨hentry, hhole⟩
  · omega

/-- The offsets ascend, and 16 bits hold all of them. -/
theorem ascending_toList (h : pool.IsIndexed) :
    pool.toList.Pairwise fun first later => first.1 < later.1 := by
  have hascending : pool.entries.toList.Pairwise fun first later => first.1 < later.1 := h.ascending
  rw [toList, List.pairwise_map]
  refine hascending.imp_of_mem fun {first later} hfirst hlater hlt => ?_
  have hle := h.next_le
  have hbounds := h.offset_bounds hfirst
  have hbounds' := h.offset_bounds hlater
  rw [UInt16.lt_iff_toNat_lt, UInt16.toNat_ofNat', UInt16.toNat_ofNat']
  omega

/-- Where the entries lie one behind the other, indices are used as they should. -/
theorem indexLaws (h : pool.IsIndexed) : pool.IndexLaws where
  slotCount_eq := h.slotCount_eq
  used_iff := h.used_iff
  separate := h.separate
  isSome_get?_iff := h.isSome_get?_iff_hasEntry
  get?_eq_none := h.get?_eq_none
  map_snd_toList := by rw [toList, List.map_map, constants]; rfl
  ascending := h.ascending_toList
  mem_toList_iff := fun _ _ => (get?_eq_some_iff h).symm

end IsIndexed

/-! ## Where pools come from -/

/-- Entries that fill the declared slots make a pool with that slot count. -/
theorem slotCount_of_filled {count : UInt16} {values : List Constant} (hpositive : count ≠ 0)
    (hwidth : OffsetVector.totalWidth values = count.toNat - 1) :
    (ofConstants values).slotCount = count := by
  have hcount : count.toNat ≠ 0 := fun hzero => hpositive (UInt16.toNat_inj.1 hzero)
  have hlt := count.toNat_lt
  rw [← UInt16.toNat_inj, slotCount, next_ofConstants, UInt16.toNat_ofNat']
  omega

/-- A pool that was read has as many slots as were declared. -/
theorem slotCount_of_read {cursor after : Cursor} (h : Pool.read cursor = .ok pool after) :
    ∃ between, Codec.uint16.read cursor = .ok pool.slotCount between := by
  obtain ⟨count, between, hcount, hbody⟩ := Stateful.bind_eq_ok h
  have hread : Codec.uint16.read cursor = .ok count between := Reader.mapError_eq_ok hcount
  by_cases hzero : count = 0
  · rw [if_pos hzero] at hbody
    cases hbody
  · rw [if_neg hzero] at hbody
    obtain ⟨entries, behind, hentries, hlast⟩ := Stateful.bind_eq_ok hbody
    obtain ⟨values, rfl, hwidth, -⟩ := returns_readEntries _ _ between entries behind hentries
    have hfilled := slotCount_of_filled hzero hwidth
    rw [foldl_push_empty] at hlast
    cases hdangling : (ofConstants values).danglingReference? with
    | some reference =>
      simp only [hdangling] at hlast
      cases hlast
    | none =>
      simp only [hdangling] at hlast
      cases hlast
      exact ⟨between, hfilled.symm ▸ hread⟩

/-- Pools use their indices in the same way whether they were read, whatever the
bytes, or built, whatever the calls.  A pool that was read has the slot count
that stands in front of it. -/
theorem indexLaws_read_and_after :
    (∀ (cursor after : Cursor) (pool : Pool), Pool.read cursor = .ok pool after →
      pool.IndexLaws ∧ ∃ high low later, cursor.rest = high :: low :: later ∧
        pool.slotCount.toNat = 256 * high.toNat + low.toNat) ∧
    ∀ history : List PoolRequest, (PoolBuilder.after history).pool.IndexLaws := by
  constructor
  · intro cursor after pool hread
    have hfits : pool.Fits := returns_read cursor pool after hread
    obtain ⟨between, hcount⟩ := slotCount_of_read hread
    exact ⟨hfits.toIsIndexed.indexLaws, Codec.uint16_read_eq_ok hcount⟩
  · intro history
    exact (PoolBuilder.isSound_after history).indexed.indexLaws

/-- One more long stands behind the others. -/
theorem mem_toList_after_longs {count : Nat} {value : Int64} (hroom : 1 + count * 2 + 2 ≤ 65535) :
    (UInt16.ofNat (1 + count * 2), Constant.long value) ∈
      (PoolBuilder.after (PoolBuilder.longs count ++ [.push (.long value)])).pool.toList := by
  have hnext := PoolBuilder.next_after_longs (Nat.le_of_add_right_le hroom)
  have hfits : (PoolBuilder.after (PoolBuilder.longs count)).pool.slotCount.toNat +
      (Constant.long value).slots ≤ 65535 := by
    rw [(PoolBuilder.isSound_after _).indexed.toNat_slotCount, hnext]
    exact hroom
  rw [PoolBuilder.after_append, List.foldl_cons, List.foldl_nil,
    PoolBuilder.next_push_of_room hfits, toList_push, hnext]
  exact List.mem_append_right _ List.mem_cons_self

/-- A pool that was read has a hole behind its long.  Longs can fill a pool up to
the last slot that 16 bits can count, and that slot is a hole as well. -/
theorem indexLaws_read_and_after_longs :
    let bytes : Bytes := [0, 4, 5, 0, 0, 0, 0, 0, 0, 0, 7, 3, 0, 0, 0, 9]
    let mixed := ofConstants [.long 7, .integer 9]
    Pool.read (.start bytes) = .ok mixed ⟨16, []⟩ ∧ mixed.slotCount.toNat = 4 ∧
      mixed.get? 2 = none ∧
      ∃ full : Pool,
        full = (PoolBuilder.after (PoolBuilder.longs 32766 ++ [.push (.long 1)])).pool ∧
          full.get? 65533 = some (.long 1) ∧ full.get? 65534 = none ∧ full.get? 65535 = none := by
  intro bytes mixed
  obtain ⟨hreads, hbuilds⟩ := indexLaws_read_and_after
  have hread : Pool.read (.start bytes) = .ok mixed ⟨16, []⟩ := by rfl
  obtain ⟨hmixed, high, low, later, hrest, hcount⟩ := hreads _ _ _ hread
  have hhole : mixed.HasHole 2 := ⟨1, .long 7, by decide, trivial, by decide⟩
  have hslots : mixed.slotCount.toNat = 4 := by
    cases hrest
    exact hcount
  refine ⟨hread, hslots, hmixed.get?_eq_none 2 (.inr (.inl hhole)), ?_⟩
  have hindex : UInt16.ofNat (1 + 32766 * 2) = 65533 := by decide
  have hspace : 1 + 32766 * 2 + 2 ≤ 65535 := by decide
  have hlisted := @mem_toList_after_longs 32766 1 hspace
  have hfull := hbuilds (PoolBuilder.longs 32766 ++ [.push (.long 1)])
  rw [hindex] at hlisted
  generalize (PoolBuilder.after (PoolBuilder.longs 32766 ++ [.push (.long 1)])).pool = full
    at hlisted hfull
  have hlastHole : full.HasHole 65534 := ⟨65533, .long 1, hlisted, trivial, by decide⟩
  have hlastCount : full.slotCount.toNat ≤ 65535 := Nat.le_of_lt_succ full.slotCount.toNat_lt
  exact ⟨full, rfl, (hfull.mem_toList_iff _ _).1 hlisted,
    hfull.get?_eq_none _ (.inr (.inl hlastHole)), hfull.get?_eq_none _ (.inr (.inr hlastCount))⟩

end Pool

end ClassDelta
