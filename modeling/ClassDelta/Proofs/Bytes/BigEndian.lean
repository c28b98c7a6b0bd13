import ClassDelta.Bytes.BigEndian
import Mathlib.Algebra.Group.Nat.Defs

/-!
# Numbers and their bytes

`BigEndian.encode` and `BigEndian.decode` undo each other on numbers and byte
lists of the right size: `BigEndian.decode_encode`, `BigEndian.encode_decode`.
-/

namespace ClassDelta.BigEndian

theorem encode_succ (width number : Nat) :
    encode (width + 1) number = UInt8.ofNat (number / 256 ^ width) :: encode width number := by
  rw [encode, Nat.shiftRight_eq_div_pow, Nat.pow_mul]

@[simp] theorem length_encode (width number : Nat) : (encode width number).length = width := by
  induction width with
  | zero => rfl
  | succ width ih => simp [encode, ih]

/-! ## Writing undoes reading, and reading undoes writing -/

theorem decode_cons (byte : UInt8) (rest : Bytes) :
    decode (byte :: rest) = byte.toNat * 256 ^ rest.length + decode rest := by
  have foldl_eq (number : Nat) (bytes : Bytes) :
      bytes.foldl (fun number byte => number * 256 + byte.toNat) number =
        number * 256 ^ bytes.length + decode bytes := by
    unfold decode
    induction bytes generalizing number with
    | nil => simp
    | cons byte rest ih =>
      rw [List.foldl_cons, List.foldl_cons, ih, ih (0 * 256 + byte.toNat), List.length_cons,
        Nat.pow_succ', Nat.zero_mul, Nat.zero_add, Nat.add_mul, Nat.mul_assoc, Nat.add_assoc]
  have step := foldl_eq byte.toNat rest
  rw [← step, decode, List.foldl_cons, Nat.zero_mul, Nat.zero_add]

/-- A byte list spells a number of at most that many bytes. -/
theorem decode_lt (bytes : Bytes) : decode bytes < 256 ^ bytes.length := by
  induction bytes with
  | nil => simp [decode]
  | cons byte rest ih =>
    rw [decode_cons, List.length_cons, Nat.pow_succ']
    have room : (byte.toNat + 1) * 256 ^ rest.length ≤ 256 * 256 ^ rest.length :=
      Nat.mul_le_mul_right _ byte.toNat_lt
    rw [Nat.add_mul] at room
    omega

/-- Only the low bytes of a number are written. -/
theorem decode_encode (width number : Nat) :
    decode (encode width number) = number % 256 ^ width := by
  induction width with
  | zero => simp [encode, decode, Nat.mod_one]
  | succ width ih =>
    have digit : (UInt8.ofNat (number / 256 ^ width)).toNat = number / 256 ^ width % 256 := by simp
    rw [encode_succ, decode_cons, ih, length_encode, digit, Nat.pow_succ, Nat.mod_mul]
    rw [Nat.add_comm, Nat.mul_comm]

/-- What lies above the low bytes of a number does not matter. -/
theorem encode_mul_add (width high number : Nat) :
    encode width (high * 256 ^ width + number) = encode width number := by
  induction width generalizing high with
  | zero => rfl
  | succ width ih =>
    have split : high * 256 ^ (width + 1) + number = (high * 256) * 256 ^ width + number := by
      rw [Nat.pow_succ', Nat.mul_assoc]
    have digit : UInt8.ofNat (high * 256 + number / 256 ^ width) =
        UInt8.ofNat (number / 256 ^ width) := by
      apply UInt8.toNat_inj.1
      simp
    have positive : 0 < 256 ^ width := Nat.pow_pos (by decide)
    rw [encode_succ, encode_succ, split, ih, Nat.mul_comm (high * 256), Nat.mul_add_div positive,
      digit]

/-- Every byte list is the written form of the number it spells. -/
theorem encode_decode (bytes : Bytes) : encode bytes.length (decode bytes) = bytes := by
  induction bytes with
  | nil => rfl
  | cons byte rest ih =>
    have positive : 0 < 256 ^ rest.length := Nat.pow_pos (by decide)
    have digit : (byte.toNat * 256 ^ rest.length + decode rest) / 256 ^ rest.length =
        byte.toNat := by
      rw [Nat.mul_comm, Nat.mul_add_div positive, Nat.div_eq_of_lt (decode_lt rest), Nat.add_zero]
    rw [List.length_cons, encode_succ, decode_cons, digit, encode_mul_add, ih, UInt8.ofNat_toNat]

end ClassDelta.BigEndian
