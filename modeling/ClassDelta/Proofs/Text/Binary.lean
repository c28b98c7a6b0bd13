import Mathlib.Algebra.Group.Nat.Defs
import Mathlib.Tactic.SplitIfs
import ClassDelta.Text.Binary

/-!
# What floating-point words stand for

A word of a format is its sign bit in front of its magnitude bits, which split
into an exponent field and a fraction.  Words other than the non-numbers stand
for different things when they are different: `BinaryFormat.magnitude_inj`
recovers the magnitude bits and `BinaryFormat.word_inj` the sign as well.

The numbers of a format have a significand that leaves little choice of the
exponent (`BinaryFormat.Holds`): only next to the lowest exponent can the
leading bit be missing.
-/

namespace ClassDelta.BinaryFormat

variable (format : BinaryFormat) {word word' : Nat}

/-- The number of bits in a word. -/
def width : Nat := format.fractionBits + format.exponentBits + 1

/-- A word without its sign bit. -/
def magnitudeBits (word : Nat) : Nat := word % 2 ^ (format.fractionBits + format.exponentBits)

/-- The magnitude bits of the infinities. -/
def infinityBits : Nat := (2 ^ format.exponentBits - 1) * 2 ^ format.fractionBits

/-- The words past infinity stand for no number. -/
def IsNotANumber (word : Nat) : Prop := format.infinityBits < format.magnitudeBits word

instance : DecidablePred format.IsNotANumber := fun _ => inferInstanceAs (Decidable (_ < _))

/-- The lowest exponent. -/
def lowestExponent : Int := 1 - ((2 ^ format.exponentBits : Nat) / 2 - 1 + format.fractionBits)

/-- Being a number of the format.  Numbers have all bits of the significand,
unless their exponent is the lowest one. -/
structure Holds (number : BinaryNumber) : Prop where
  pos : 0 < number.significand
  lt : number.significand < 2 ^ (format.fractionBits + 1)
  le_exponent : format.lowestExponent ≤ number.exponent
  le_significand : format.lowestExponent < number.exponent →
    2 ^ format.fractionBits ≤ number.significand
  atPowerOfTwo_iff : number.atPowerOfTwo = true ↔
    number.significand = 2 ^ format.fractionBits ∧ format.lowestExponent < number.exponent

/-! ## Fields -/

theorem magnitudeBits_eq (word : Nat) :
    format.magnitudeBits word =
      word % 2 ^ format.fractionBits +
        2 ^ format.fractionBits * (word / 2 ^ format.fractionBits % 2 ^ format.exponentBits) := by
  unfold magnitudeBits
  rw [Nat.pow_add, Nat.mod_mul]

theorem toNat_isNegative (word : Nat) (hword : word < 2 ^ format.width) :
    (format.isNegative word).toNat = word / 2 ^ (format.fractionBits + format.exponentBits) := by
  have hquotient : word / 2 ^ (format.fractionBits + format.exponentBits) < 2 := by
    rw [Nat.div_lt_iff_lt_mul (Nat.two_pow_pos _), Nat.mul_comm, ← Nat.pow_succ]
    exact hword
  unfold isNegative
  rw [Nat.testBit_eq_decide_div_mod_eq, Nat.mod_eq_of_lt hquotient]
  generalize word / 2 ^ (format.fractionBits + format.exponentBits) = bit at *
  have hcases : bit = 0 ∨ bit = 1 := by omega
  rcases hcases with rfl | rfl <;> rfl

/-- A word is its sign and its magnitude bits. -/
theorem word_inj (hword : word < 2 ^ format.width) (hword' : word' < 2 ^ format.width)
    (hsign : format.isNegative word = format.isNegative word')
    (hbits : format.magnitudeBits word = format.magnitudeBits word') : word = word' := by
  have hquotient := congrArg Bool.toNat hsign
  rw [format.toNat_isNegative word hword, format.toNat_isNegative word' hword'] at hquotient
  rw [← Nat.div_add_mod word (2 ^ (format.fractionBits + format.exponentBits)),
    ← Nat.div_add_mod word' (2 ^ (format.fractionBits + format.exponentBits)), hquotient]
  exact congrArg _ hbits

/-! ## Magnitudes -/

/-- The cases of `BinaryFormat.magnitude`, by the fields of the word. -/
theorem magnitude_eq (word : Nat) :
    format.magnitude word =
      let fraction := word % 2 ^ format.fractionBits
      let field := word / 2 ^ format.fractionBits % 2 ^ format.exponentBits
      if field = 2 ^ format.exponentBits - 1 then
        if fraction = 0 then .infinite else .notANumber
      else if field = 0 then
        if fraction = 0 then .zero else .finite ⟨fraction, format.lowestExponent, false⟩
      else
        .finite ⟨2 ^ format.fractionBits + fraction, format.lowestExponent + (field - 1),
          fraction == 0 && field != 1⟩ := by
  have hexponent (field : Int) :
      field - ((2 ^ format.exponentBits : Nat) / 2 - 1 + format.fractionBits : Int) =
        format.lowestExponent + (field - 1) := by
    unfold lowestExponent
    omega
  unfold magnitude
  simp only [Nat.one_shiftLeft, hexponent, Int.sub_self, Int.add_zero]

theorem magnitude_eq_notANumber_iff (word : Nat) :
    format.magnitude word = .notANumber ↔ format.IsNotANumber word := by
  unfold IsNotANumber infinityBits
  rw [magnitude_eq, magnitudeBits_eq]
  have hfraction := Nat.mod_lt word (Nat.two_pow_pos format.fractionBits)
  have hfield := Nat.mod_lt (word / 2 ^ format.fractionBits) (Nat.two_pow_pos format.exponentBits)
  generalize word % 2 ^ format.fractionBits = fraction at *
  generalize word / 2 ^ format.fractionBits % 2 ^ format.exponentBits = field at *
  rw [Nat.mul_comm (2 ^ format.fractionBits)]
  dsimp only
  split_ifs with hlast hzero hnone hzero
  · simp [hlast, hzero]
  · simp only [hlast, true_iff]
    omega
  all_goals
    have hnext : (field + 1) * 2 ^ format.fractionBits ≤
        (2 ^ format.exponentBits - 1) * 2 ^ format.fractionBits :=
      Nat.mul_le_mul_right _ (by omega)
    rw [Nat.succ_mul] at hnext
    simp only [false_iff]
    omega

/-- Finite magnitudes are numbers of the format. -/
theorem holds_of_magnitude {number : BinaryNumber} (h : format.magnitude word = .finite number) :
    format.Holds number := by
  rw [magnitude_eq] at h
  have hfraction := Nat.mod_lt word (Nat.two_pow_pos format.fractionBits)
  generalize word % 2 ^ format.fractionBits = fraction at *
  generalize word / 2 ^ format.fractionBits % 2 ^ format.exponentBits = field at *
  have hdouble := Nat.pow_succ 2 format.fractionBits
  dsimp only at h
  split_ifs at h with hlast hzero hnone hzero
  · obtain rfl := BinaryMagnitude.finite.inj h
    constructor <;> simp <;> omega
  · obtain rfl := BinaryMagnitude.finite.inj h
    constructor <;> simp <;> omega

/-- Nothing but the non-numbers shares its magnitude with another word. -/
theorem magnitude_inj (hnumber : ¬ format.IsNotANumber word)
    (h : format.magnitude word = format.magnitude word') :
    format.magnitudeBits word = format.magnitudeBits word' := by
  rw [← magnitude_eq_notANumber_iff] at hnumber
  rw [magnitude_eq] at h hnumber
  rw [magnitude_eq] at h
  rw [magnitudeBits_eq, magnitudeBits_eq]
  have hfraction := Nat.mod_lt word (Nat.two_pow_pos format.fractionBits)
  have hfraction' := Nat.mod_lt word' (Nat.two_pow_pos format.fractionBits)
  generalize word % 2 ^ format.fractionBits = fraction at *
  generalize word / 2 ^ format.fractionBits % 2 ^ format.exponentBits = field at *
  generalize word' % 2 ^ format.fractionBits = fraction' at *
  generalize word' / 2 ^ format.fractionBits % 2 ^ format.exponentBits = field' at *
  suffices fraction = fraction' ∧ field = field' by rw [this.1, this.2]
  dsimp only at h hnumber
  split_ifs at h hnumber <;> simp at h hnumber <;> omega

end ClassDelta.BinaryFormat
