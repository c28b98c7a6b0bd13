import Mathlib.Algebra.Order.Field.Power
import Mathlib.Data.Rat.Cast.Order
import Mathlib.Tactic.FieldSimp
import Mathlib.Tactic.LinearCombination
import Mathlib.Tactic.NormNum
import Mathlib.Tactic.Positivity
import Mathlib.Tactic.Ring
import ClassDelta.Proofs.Text.Binary
import ClassDelta.Text.Decimal

/-!
# Shortest decimals round back

The rationals that round to a number of a binary format lie between two ends
that are whole numbers of quarters of its last bit
(`BinaryNumber.RoundsFrom`).  A `RoundingInterval` says the same with the
denominators cleared, so whatever `Decimal.shortest` finds rounds to the number
it was asked for.

No rational rounds to two numbers of a format: the intervals of neighbours
share an end, and one of the two significands is odd.  A decimal therefore
determines the number that it is the shortest decimal of.
-/

namespace ClassDelta

namespace BinaryNumber

/-- The number as a rational. -/
def value (number : BinaryNumber) : ℚ := number.significand * 2 ^ number.exponent

/-- A quarter of the last bit of the significand. -/
def quarter (number : BinaryNumber) : ℚ := 2 ^ (number.exponent - 2)

/-- The lower end of the rounding interval, in quarters.  It is halfway to the
number below. -/
def low (number : BinaryNumber) : Nat :=
  4 * number.significand - if number.atPowerOfTwo then 1 else 2

/-- The upper end of the rounding interval, in quarters. -/
def high (number : BinaryNumber) : Nat := 4 * number.significand + 2

/-- The number is nearest to `value`.  A tie goes to the even significand. -/
structure RoundsFrom (number : BinaryNumber) (value : ℚ) : Prop where
  low_le : number.low * number.quarter ≤ value
  le_high : value ≤ number.high * number.quarter
  ne_ends : number.significand % 2 = 1 →
    number.low * number.quarter ≠ value ∧ value ≠ number.high * number.quarter

theorem quarter_pos (number : BinaryNumber) : 0 < number.quarter := by
  unfold quarter
  positivity

theorem value_eq (number : BinaryNumber) :
    number.value = (4 * number.significand : Nat) * number.quarter := by
  unfold value quarter
  rw [zpow_sub₀ (by norm_num)]
  push_cast
  ring

/-- A positive number is in its own rounding interval. -/
theorem roundsFrom_value {number : BinaryNumber} (hpos : 0 < number.significand) :
    number.RoundsFrom number.value := by
  have hlow : number.low < 4 * number.significand := by
    unfold low
    split <;> omega
  have hhigh : 4 * number.significand < number.high := by
    unfold high
    omega
  have hbelow : number.low * number.quarter < number.value := by
    rw [value_eq]
    exact mul_lt_mul_of_pos_right (by exact_mod_cast hlow) number.quarter_pos
  have habove : number.value < number.high * number.quarter := by
    rw [value_eq]
    exact mul_lt_mul_of_pos_right (by exact_mod_cast hhigh) number.quarter_pos
  exact ⟨hbelow.le, habove.le, fun _ => ⟨hbelow.ne, habove.ne⟩⟩

/-- Nothing rounds to a positive number but positive rationals. -/
theorem RoundsFrom.pos {number : BinaryNumber} {value : ℚ} (h : number.RoundsFrom value)
    (hpos : 0 < number.significand) : 0 < value := by
  have hlow : 0 < number.low := by
    unfold low
    split <;> omega
  have hend : 0 < number.low * number.quarter :=
    mul_pos (by exact_mod_cast hlow) number.quarter_pos
  exact hend.trans_le h.low_le

end BinaryNumber

/-- The decimal as a rational. -/
def Decimal.value (decimal : Decimal) : ℚ := decimal.coefficient * 10 ^ decimal.exponent

/-! ## Clearing denominators -/

theorem powerNumerator_eq {base : Nat} (hbase : 0 < base) (exponent : Int) :
    (powerNumerator base exponent : ℚ) = base ^ exponent * powerDenominator base exponent := by
  have hne : (base : ℚ) ≠ 0 := by exact_mod_cast hbase.ne'
  unfold powerNumerator powerDenominator
  simp only [Nat.pow_eq, Nat.cast_pow, ← zpow_natCast]
  rw [← zpow_add₀ hne]
  congr 1
  omega

theorem powerDenominator_pos {base : Nat} (hbase : 0 < base) (exponent : Int) :
    0 < powerDenominator base exponent :=
  Nat.pow_pos hbase

namespace RoundingInterval

/-- What the numbers of an interval were multiplied by. -/
def denominators (number : BinaryNumber) (exponent : Int) : ℚ :=
  powerDenominator 10 exponent * powerDenominator 2 (number.exponent - 2)

variable (number : BinaryNumber) (exponent : Int)

theorem denominators_pos : 0 < denominators number exponent := by
  have hten := powerDenominator_pos (by decide : 0 < 10) exponent
  have htwo := powerDenominator_pos (by decide : 0 < 2) (number.exponent - 2)
  unfold denominators
  exact_mod_cast Nat.mul_pos hten htwo

theorem step_eq :
    ((ofNumber number exponent).step : ℚ) = 10 ^ exponent * denominators number exponent := by
  show ((powerNumerator 10 exponent * powerDenominator 2 (number.exponent - 2) : Nat) : ℚ) = _
  unfold denominators
  rw [Nat.cast_mul, powerNumerator_eq (by decide), Nat.cast_ofNat]
  ring

theorem step_pos : 0 < (ofNumber number exponent).step := by
  have hstep : (0 : ℚ) < (ofNumber number exponent).step := by
    rw [step_eq]
    exact mul_pos (by positivity) (denominators_pos number exponent)
  exact_mod_cast hstep

theorem scale_eq (quarters : Nat) :
    ((quarters * (powerNumerator 2 (number.exponent - 2) * powerDenominator 10 exponent) :
      Nat) : ℚ) = quarters * number.quarter * denominators number exponent := by
  unfold denominators BinaryNumber.quarter
  rw [Nat.cast_mul, Nat.cast_mul, powerNumerator_eq (by decide), Nat.cast_ofNat]
  ring

theorem low_eq :
    ((ofNumber number exponent).low : ℚ) =
      number.low * number.quarter * denominators number exponent :=
  scale_eq number exponent number.low

theorem value_eq :
    ((ofNumber number exponent).value : ℚ) = number.value * denominators number exponent := by
  rw [number.value_eq]
  exact scale_eq number exponent (4 * number.significand)

theorem high_eq :
    ((ofNumber number exponent).high : ℚ) =
      number.high * number.quarter * denominators number exponent :=
  scale_eq number exponent number.high

theorem point_eq (coefficient : Nat) :
    ((coefficient * (ofNumber number exponent).step : Nat) : ℚ) =
      (Decimal.mk coefficient exponent).value * denominators number exponent := by
  unfold Decimal.value
  rw [Nat.cast_mul, step_eq]
  ring

/-- What was multiplied by the same compares the same. -/
theorem compare_iff {left right : Nat} {value value' scale : ℚ} (hscale : 0 < scale)
    (hleft : (left : ℚ) = value * scale) (hright : (right : ℚ) = value' * scale) :
    (left ≤ right ↔ value ≤ value') ∧ (left = right ↔ value = value') := by
  rw [← Nat.cast_le (α := ℚ), ← Nat.cast_inj (R := ℚ), hleft, hright]
  exact ⟨mul_le_mul_iff_left₀ hscale, mul_left_inj' hscale.ne'⟩

/-- The interval holds the multiples of the grid that round to the number. -/
theorem holds_iff (coefficient : Nat) :
    (ofNumber number exponent).holds coefficient = true ↔
      number.RoundsFrom (Decimal.mk coefficient exponent).value := by
  have hpos := denominators_pos number exponent
  have hpoint := point_eq number exponent coefficient
  obtain ⟨hlow, hlow'⟩ := compare_iff hpos (low_eq number exponent) hpoint
  obtain ⟨hhigh, hhigh'⟩ := compare_iff hpos hpoint (high_eq number exponent)
  have hends : (ofNumber number exponent).endsIncluded = (number.significand % 2 == 0) := rfl
  rcases Nat.mod_two_eq_zero_or_one number.significand with heven | hodd
  · simp only [holds, hends, heven, beq_self_eq_true, if_true, Bool.and_eq_true, decide_eq_true_eq,
      hlow, hhigh]
    exact ⟨fun h => ⟨h.1, h.2, fun hodd => absurd hodd (by omega)⟩, fun h => ⟨h.low_le, h.le_high⟩⟩
  · simp only [holds, hends, hodd, Nat.one_ne_zero, beq_iff_eq, if_false, Bool.and_eq_true,
      decide_eq_true_eq, Nat.lt_iff_le_and_ne, ne_eq, hlow, hlow', hhigh, hhigh']
    exact ⟨fun h => ⟨h.1.1, h.2.1, fun _ => ⟨h.1.2, h.2.2⟩⟩, fun h =>
      ⟨⟨h.low_le, (h.ne_ends hodd).1⟩, h.le_high, (h.ne_ends hodd).2⟩⟩

theorem holds_of_nearest? {interval : RoundingInterval} {coefficient : Nat}
    (h : interval.nearest? = some coefficient) : interval.holds coefficient = true := by
  unfold nearest? at h
  dsimp only at h
  split_ifs at h with hbelow habove habove
  · obtain rfl := Option.some.inj h
    exact (Bool.and_eq_true _ _ ▸ habove).1
  · obtain rfl := Option.some.inj h
    exact hbelow
  · obtain rfl := Option.some.inj h
    exact habove

end RoundingInterval

/-! ## The search -/

namespace Decimal

variable (number : BinaryNumber)

/-- At the last power that is tried, the number is on the grid: halves are
fives of the next place. -/
theorem exists_value_eq :
    ∃ coefficient, (Decimal.mk coefficient (min number.exponent 0)).value = number.value := by
  refine ⟨number.significand * 2 ^ number.exponent.toNat * 5 ^ (-number.exponent).toNat, ?_⟩
  unfold Decimal.value BinaryNumber.value
  rcases le_total 0 number.exponent with hwhole | hfraction
  · have hfives : (-number.exponent).toNat = 0 := by omega
    have htwos : (2 : ℚ) ^ number.exponent = 2 ^ number.exponent.toNat := by
      rw [← zpow_natCast, Int.toNat_of_nonneg hwhole]
    rw [min_eq_right hwhole, hfives, htwos, zpow_zero]
    push_cast
    ring
  · have htwos : number.exponent.toNat = 0 := by omega
    have hten : (10 : ℚ) = 2 * 5 := by norm_num
    have hfives : (5 : ℚ) ^ (-number.exponent).toNat * 5 ^ number.exponent = 1 := by
      rw [← zpow_natCast, ← zpow_add₀ (by norm_num), Int.toNat_of_nonneg (by omega),
        neg_add_cancel, zpow_zero]
    rw [min_eq_left hfraction, htwos, hten, mul_zpow]
    push_cast
    linear_combination (number.significand * 2 ^ number.exponent : ℚ) * hfives

theorem value_search_zero :
    (search number 0 (min number.exponent 0)).value = number.value := by
  obtain ⟨coefficient, hvalue⟩ := exists_value_eq number
  let interval := RoundingInterval.ofNumber number (min number.exponent 0)
  have hexact : interval.value = coefficient * interval.step := by
    have hpoint := RoundingInterval.point_eq number (min number.exponent 0) coefficient
    rw [hvalue, ← RoundingInterval.value_eq] at hpoint
    exact_mod_cast hpoint.symm
  have hquotient : interval.value / interval.step = coefficient := by
    rw [hexact, Nat.mul_div_cancel _ (RoundingInterval.step_pos number _)]
  rw [← hvalue, ← hquotient]
  rfl

variable {number}

theorem roundsFrom_search (hpos : 0 < number.significand) (powers : Nat) (exponent : Int)
    (hlast : exponent - powers = min number.exponent 0) :
    number.RoundsFrom (search number powers exponent).value := by
  induction powers generalizing exponent with
  | zero =>
    obtain rfl : exponent = min number.exponent 0 := by simpa using hlast
    rw [value_search_zero]
    exact BinaryNumber.roundsFrom_value hpos
  | succ powers ih =>
    unfold search
    split
    · rename_i coefficient hnearest
      rw [← RoundingInterval.holds_iff]
      exact RoundingInterval.holds_of_nearest? hnearest
    · apply ih
      push_cast at hlast
      omega

/-- The shortest decimal of a number rounds to it. -/
theorem roundsFrom_shortest (hpos : 0 < number.significand) :
    number.RoundsFrom (shortest number).value := by
  unfold shortest
  apply roundsFrom_search hpos
  omega

end Decimal

/-! ## Telling numbers apart -/

namespace BinaryNumber

variable {format : BinaryFormat} {number next : BinaryNumber} {value : ℚ}

/-- Two numbers with the same last bit have at most an end in common. -/
theorem RoundsFrom.not_next_of_sameExponent (h : number.RoundsFrom value)
    (hexponent : number.exponent = next.exponent) (hlt : number.significand < next.significand) :
    ¬ next.RoundsFrom value := by
  intro hnext
  have hquarter : next.quarter = number.quarter := by rw [quarter, quarter, hexponent]
  have hlow_le := hnext.low_le
  rw [hquarter] at hlow_le
  have hbetween : next.low ≤ number.high := by
    have := le_of_mul_le_mul_right (hlow_le.trans h.le_high) number.quarter_pos
    exact_mod_cast this
  have hapart : 4 * next.significand - 2 ≤ next.low := by
    unfold low
    split <;> omega
  have hhigh : number.high = 4 * number.significand + 2 := rfl
  -- The significands are neighbours, so the end in common belongs to one only.
  have hmeet : next.low = number.high := by omega
  have hvalue : value = number.high * number.quarter :=
    le_antisymm h.le_high (hmeet ▸ hlow_le)
  rcases Nat.mod_two_eq_zero_or_one number.significand with heven | hodd
  · have hodd : next.significand % 2 = 1 := by omega
    apply (hnext.ne_ends hodd).1
    rw [hquarter, hmeet, hvalue]
  · exact (h.ne_ends hodd).2 hvalue

/-- The largest significand is odd, so the end above it belongs to the number
after it. -/
theorem RoundsFrom.not_next_of_lt_exponent (h : number.RoundsFrom value)
    (hnumber : format.Holds number) (hnext : format.Holds next)
    (hlt : number.exponent < next.exponent) : ¬ next.RoundsFrom value := by
  intro hrounds
  have hquarter : 2 * number.quarter ≤ next.quarter := by
    unfold quarter
    rw [mul_comm, ← zpow_add_one₀ (by norm_num)]
    exact zpow_le_zpow_right₀ (by norm_num) (by omega)
  have hlow : 4 * 2 ^ format.fractionBits ≤ next.low + 1 := by
    have hlowest : format.lowestExponent < next.exponent := hnumber.le_exponent.trans_lt hlt
    have hsignificand := hnext.le_significand hlowest
    unfold low
    split
    · omega
    · rename_i hpower
      have hne : next.significand ≠ 2 ^ format.fractionBits := fun heq =>
        hpower (hnext.atPowerOfTwo_iff.2 ⟨heq, hlowest⟩)
      omega
  have hhigh : number.high + 2 ≤ 8 * 2 ^ format.fractionBits := by
    have hsignificand := hnumber.lt
    rw [Nat.pow_succ] at hsignificand
    unfold high
    omega
  have hlow_le : (next.low * 2 : Nat) * number.quarter ≤ value := by
    calc ((next.low * 2 : Nat) : ℚ) * number.quarter
        = next.low * (2 * number.quarter) := by push_cast; ring
      _ ≤ next.low * next.quarter := mul_le_mul_of_nonneg_left hquarter (Nat.cast_nonneg _)
      _ ≤ value := hrounds.low_le
  have hbetween : next.low * 2 ≤ number.high := by
    have := le_of_mul_le_mul_right (hlow_le.trans h.le_high) number.quarter_pos
    exact_mod_cast this
  have hmeet : next.low * 2 = number.high := by omega
  have hodd : number.significand % 2 = 1 := by
    unfold high at hmeet hhigh
    omega
  exact (h.ne_ends hodd).2 (le_antisymm h.le_high (hmeet ▸ hlow_le))

/-- Every rational rounds to one number of a format at most. -/
theorem RoundsFrom.unique (h : number.RoundsFrom value) (h' : next.RoundsFrom value)
    (hnumber : format.Holds number) (hnext : format.Holds next) : number = next := by
  have hexponent : number.exponent = next.exponent := by
    rcases lt_trichotomy number.exponent next.exponent with hlt | heq | hgt
    · exact absurd h' (h.not_next_of_lt_exponent hnumber hnext hlt)
    · exact heq
    · exact absurd h (h'.not_next_of_lt_exponent hnext hnumber hgt)
  have hsignificand : number.significand = next.significand := by
    rcases lt_trichotomy number.significand next.significand with hlt | heq | hgt
    · exact absurd h' (h.not_next_of_sameExponent hexponent hlt)
    · exact heq
    · exact absurd h (h'.not_next_of_sameExponent hexponent.symm hgt)
  have hpower : number.atPowerOfTwo = next.atPowerOfTwo := by
    rw [Bool.eq_iff_iff, hnumber.atPowerOfTwo_iff, hnext.atPowerOfTwo_iff, hexponent, hsignificand]
  cases number
  cases next
  simp_all

end BinaryNumber

/-- The shortest decimal is one number's only. -/
theorem Decimal.value_shortest_inj {format : BinaryFormat} {number next : BinaryNumber}
    (hnumber : format.Holds number) (hnext : format.Holds next)
    (h : (shortest number).value = (shortest next).value) : number = next :=
  (roundsFrom_shortest hnumber.pos).unique (h ▸ roundsFrom_shortest hnext.pos) hnumber hnext

end ClassDelta
