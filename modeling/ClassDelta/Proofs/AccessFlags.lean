import ClassDelta.AccessFlags
import Mathlib.Data.List.Nodup
import Mathlib.Data.Nat.Bitwise

/-!
# Names of flags

Each defined bit of a scope is a single one, so the word of a set of flags is
known by which of them it has (`Flags.eq_of_has_eq`).  In the scopes whose flags
are shown, the table has a name for every defined bit and for no other
(`FlagScope.table_perm_bits`), and all names differ.  So the names of a set of
flags leave nothing out: equal names make equal flags (`Flags.eq_of_sameNames`).
-/

namespace ClassDelta

/-! ## Words and single bits -/

/-- Of a single bit, a word has all or nothing. -/
theorem and_bit_eq_zero_or {bit : UInt16} {position : Nat} (word : UInt16)
    (hbit : bit.toNat = 2 ^ position) :
    word &&& bit = 0 ∨ word &&& bit = bit := by
  have hand : (word &&& bit).toNat = (word.toNat.testBit position).toNat * 2 ^ position := by
    rw [UInt16.toNat_and, hbit, Nat.and_two_pow]
  cases hset : word.toNat.testBit position with
  | false =>
    left
    rw [← UInt16.toNat_inj, hand, hset, Bool.toNat_false, Nat.zero_mul, UInt16.toNat_zero]
  | true =>
    right
    rw [← UInt16.toNat_inj, hand, hset, Bool.toNat_true, Nat.one_mul, hbit]

theorem and_or_distrib (word mask bit : UInt16) :
    word &&& (mask ||| bit) = word &&& mask ||| word &&& bit := by
  rw [← UInt16.toNat_inj]
  simp only [UInt16.toNat_and, UInt16.toNat_or, Nat.and_or_distrib_left]

/-- What a word has of many bits is what it has of each one. -/
theorem and_foldl_or (word mask : UInt16) (bits : List UInt16) :
    word &&& bits.foldl (· ||| ·) mask =
      bits.foldl (fun found bit => found ||| (word &&& bit)) (word &&& mask) := by
  induction bits generalizing mask with
  | nil => rfl
  | cons bit later ih => rw [List.foldl_cons, ih, List.foldl_cons, and_or_distrib]

/-! ## Scopes -/

namespace FlagScope

variable (scope : FlagScope)

theorem single_bit_of_mem_bits :
    ∀ bit ∈ scope.bits, ∃ position < 16, bit.toNat = 2 ^ position := by
  -- as numbers, so that only those in the list are gone through
  have hnumbers : ∀ number ∈ scope.bits.map UInt16.toNat, ∃ position < 16,
      number = 2 ^ position := by
    cases scope <;> decide
  intro bit hmem
  exact hnumbers bit.toNat (List.mem_map_of_mem hmem)

theorem nodup_names_table : (scope.table.map Prod.snd).Nodup := by
  cases scope <;> decide

/-- Where flags are shown, the defined ones have one name each. -/
theorem table_perm_bits {scope : FlagScope} (h : scope ≠ .ofInnerClass) :
    (scope.table.map Prod.fst).Perm scope.bits := by
  cases scope with
  | ofClass | ofField | ofMethod => decide
  | ofInnerClass => exact absurd rfl h

end FlagScope

/-! ## Names -/

namespace Flags

variable {scope : FlagScope} {flags flags' : Flags scope}

/-- A name is listed if its own bit is set. -/
theorem snd_mem_names_iff {flag : UInt16 × String} (hflag : flag ∈ scope.table) :
    flag.2 ∈ flags.names ↔ flags.has flag.1 := by
  unfold names
  rw [List.mem_map]
  constructor
  · rintro ⟨other, hmem, hname⟩
    obtain ⟨hother, hset⟩ := List.mem_filter.1 hmem
    obtain rfl := List.inj_on_of_nodup_map scope.nodup_names_table hother hflag hname
    exact hset
  · intro hset
    exact ⟨flag, List.mem_filter.2 ⟨hflag, hset⟩, rfl⟩

theorem and_eq_of_has_eq {bit : UInt16} (hbit : bit ∈ scope.bits)
    (h : flags.has bit = flags'.has bit) : flags.bits &&& bit = flags'.bits &&& bit := by
  obtain ⟨position, -, hposition⟩ := scope.single_bit_of_mem_bits bit hbit
  have hnonzero : bit ≠ 0 := by
    rw [Ne, ← UInt16.toNat_inj, hposition, UInt16.toNat_zero]
    exact Nat.ne_of_gt (Nat.two_pow_pos position)
  unfold has at h
  rcases and_bit_eq_zero_or flags.bits hposition with hfirst | hfirst <;>
    rcases and_bit_eq_zero_or flags'.bits hposition with hsecond | hsecond <;>
    simp_all

/-- Flags are the same when the same defined bits are set, as there are no
others. -/
theorem eq_of_has_eq (h : ∀ bit ∈ scope.bits, flags.has bit = flags'.has bit) :
    flags = flags' := by
  obtain ⟨bits, hbits⟩ := flags
  obtain ⟨bits', hbits'⟩ := flags'
  have hmask : bits &&& scope.mask = bits' &&& scope.mask := by
    unfold FlagScope.mask
    rw [and_foldl_or, and_foldl_or, UInt16.and_zero, UInt16.and_zero]
    exact List.foldl_ext _ _ _ fun found bit hbit => by rw [and_eq_of_has_eq hbit (h bit hbit)]
  have hsame : bits = bits' := by rw [← hbits, ← hbits', hmask]
  subst hsame
  rfl

/-- Flags that are shown are known by their names. -/
theorem eq_of_sameNames (hscope : scope ≠ .ofInnerClass)
    (h : ∀ name, name ∈ flags.names ↔ name ∈ flags'.names) : flags = flags' := by
  refine eq_of_has_eq fun bit hbit => ?_
  have hnamed := (FlagScope.table_perm_bits hscope).mem_iff.2 hbit
  obtain ⟨flag, hflag, rfl⟩ := List.mem_map.1 hnamed
  rw [Bool.eq_iff_iff, ← snd_mem_names_iff hflag, ← snd_mem_names_iff hflag]
  exact h flag.2

end Flags

end ClassDelta
