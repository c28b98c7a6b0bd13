/-!
# Binary floating-point numbers

A `BinaryFormat` splits a word into a sign, an exponent and a fraction.  The
word then stands for `± significand · 2 ^ exponent`, for an infinity, or for no
number.  Everything here is exact arithmetic on `Nat` and `Int`.
-/

namespace ClassDelta

/-- The widths of the two magnitude fields of a floating-point word. -/
structure BinaryFormat where
  fractionBits : Nat
  exponentBits : Nat

namespace BinaryFormat

/-- 32-bit words. -/
def single : BinaryFormat := ⟨23, 8⟩

/-- 64-bit words. -/
def double : BinaryFormat := ⟨52, 11⟩

end BinaryFormat

/-- A positive number `significand · 2 ^ exponent`. -/
structure BinaryNumber where
  significand : Nat
  exponent : Int
  /-- The numbers below lie twice as close as those above. -/
  atPowerOfTwo : Bool
deriving DecidableEq

/-- What the magnitude of a floating-point word stands for. -/
inductive BinaryMagnitude
  | zero
  | finite (number : BinaryNumber)
  | infinite
  | notANumber
deriving DecidableEq

namespace BinaryFormat

/-- The sign bit is set. -/
def isNegative (format : BinaryFormat) (word : Nat) : Bool :=
  word.testBit (format.fractionBits + format.exponentBits)

/-- The magnitude of a word.  A zero exponent field marks numbers without the
leading one bit; the largest one marks the infinities and the non-numbers. -/
def magnitude (format : BinaryFormat) (word : Nat) : BinaryMagnitude :=
  let leadingOne := 1 <<< format.fractionBits
  let fieldCount := 1 <<< format.exponentBits
  let fraction := word % leadingOne
  let field := word / leadingOne % fieldCount
  let bias : Int := fieldCount / 2 - 1 + format.fractionBits
  if field = fieldCount - 1 then
    if fraction = 0 then .infinite else .notANumber
  else if field = 0 then
    if fraction = 0 then .zero else .finite ⟨fraction, 1 - bias, false⟩
  else
    .finite ⟨leadingOne + fraction, field - bias, fraction == 0 && field != 1⟩

end BinaryFormat

end ClassDelta
