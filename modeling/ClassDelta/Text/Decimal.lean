import ClassDelta.Text.Binary

/-!
# Shortest decimals

A floating-point number is shown with the fewest digits that no other number of
its format shares.  The reals that round to a number form an interval around
it, whose ends belong to it when its significand is even.  Of the decimals in
that interval, the shortest are the multiples of the largest power of ten that
has a multiple there; among those the nearest is chosen, and of two equally
near ones the larger.

* `Decimal.shortest` finds it by trying one power of ten after the other, from
  above the number down to one that divides it.
* `DecimalLayout` says how a decimal is written out.
-/

namespace ClassDelta

/-- The number `coefficient · 10 ^ exponent`. -/
structure Decimal where
  coefficient : Nat
  exponent : Int
deriving DecidableEq

/-! ## Comparing binary and decimal scales -/

/-- A power as a fraction of two natural numbers. -/
def powerNumerator (base : Nat) (exponent : Int) : Nat := base.pow exponent.toNat

@[inherit_doc powerNumerator]
def powerDenominator (base : Nat) (exponent : Int) : Nat := base.pow (-exponent).toNat

/-- The interval of reals that round to a number, in quarters of its last bit,
cross-multiplied so that a multiple `c` of `10 ^ exponent` is compared as
`c * step`. -/
structure RoundingInterval where
  low : Nat
  value : Nat
  high : Nat
  /-- What one unit of the decimal grid amounts to. -/
  step : Nat
  endsIncluded : Bool
deriving DecidableEq

namespace RoundingInterval

/-- The rounding interval of a number, scaled for the multiples of
`10 ^ exponent`. -/
def ofNumber (number : BinaryNumber) (exponent : Int) : RoundingInterval :=
  let quarter := number.exponent - 2
  let scale := powerNumerator 2 quarter * powerDenominator 10 exponent
  let below := if number.atPowerOfTwo then 1 else 2
  { low := (4 * number.significand - below) * scale
    value := 4 * number.significand * scale
    high := (4 * number.significand + 2) * scale
    step := powerNumerator 10 exponent * powerDenominator 2 quarter
    endsIncluded := number.significand % 2 == 0 }

/-- Does the multiple `coefficient` of the grid round to the number? -/
def holds (interval : RoundingInterval) (coefficient : Nat) : Bool :=
  let point := coefficient * interval.step
  if interval.endsIncluded then interval.low ≤ point && point ≤ interval.high
  else interval.low < point && point < interval.high

/-- The multiple of the grid that is nearest to the number among those that
round to it; only the two neighbours of the number can be. -/
def nearest? (interval : RoundingInterval) : Option Nat :=
  let below := interval.value / interval.step
  let above := below + 1
  if interval.holds below then
    if interval.holds above &&
        above * interval.step - interval.value ≤ interval.value - below * interval.step then
      some above
    else some below
  else if interval.holds above then some above
  else none

end RoundingInterval

namespace Decimal

/-- Try the multiples of `10 ^ exponent`, then those of the next lower powers;
the last power tried divides the number. -/
def search (number : BinaryNumber) : (powers : Nat) → (exponent : Int) → Decimal
  | 0, exponent =>
    let interval := RoundingInterval.ofNumber number exponent
    ⟨interval.value / interval.step, exponent⟩
  | powers + 1, exponent =>
    match (RoundingInterval.ofNumber number exponent).nearest? with
    | some coefficient => ⟨coefficient, exponent⟩
    | none => search number powers (exponent - 1)

/-- The shortest decimal that rounds to the number. -/
def shortest (number : BinaryNumber) : Decimal :=
  let whole := number.significand * powerNumerator 2 number.exponent /
    powerDenominator 2 number.exponent
  let highest : Int := whole.repr.length
  let lowest : Int := min number.exponent 0
  search number (highest - lowest).toNat highest

/-- The digits of the coefficient. -/
def digits (decimal : Decimal) : String := decimal.coefficient.repr

/-- The exponent of ten of the first digit. -/
def leadingExponent (decimal : Decimal) : Int :=
  decimal.exponent + decimal.digits.length - 1

end Decimal

/-! ## Layout -/

/-- How floating-point numbers are written. -/
structure DecimalLayout where
  /-- Numbers whose first digit stands for this power of ten or a higher one … -/
  positionalFrom : Int
  /-- … but below this one are written without an exponent. -/
  scientificFrom : Int
  infinity : String
  notANumber : String

namespace DecimalLayout

/-- A run of zeros. -/
def zeros (count : Nat) : String := String.ofList (List.replicate count '0')

/-- A decimal without an exponent; a whole number gets the fraction `.0`. -/
def positional (decimal : Decimal) : String :=
  let digits := decimal.digits
  if 0 ≤ decimal.exponent then digits ++ zeros decimal.exponent.toNat ++ ".0"
  else
    let places := (-decimal.exponent).toNat
    if digits.length ≤ places then "0." ++ zeros (places - digits.length) ++ digits
    else
      let whole := digits.length - places
      String.ofList (digits.toList.take whole) ++ "." ++ String.ofList (digits.toList.drop whole)

/-- A decimal with one digit in front of the point and an exponent. -/
def scientific (decimal : Decimal) : String :=
  let fraction := decimal.digits.toList.drop 1
  String.ofList (decimal.digits.toList.take 1) ++
    (if fraction.isEmpty then "" else "." ++ String.ofList fraction) ++
    "e" ++ toString decimal.leadingExponent

/-- A positive decimal, in the form its size asks for. -/
def decimalText (layout : DecimalLayout) (decimal : Decimal) : String :=
  if layout.positionalFrom ≤ decimal.leadingExponent &&
      decimal.leadingExponent < layout.scientificFrom then positional decimal
  else scientific decimal

/-- The magnitude of a floating-point word. -/
def magnitudeText (layout : DecimalLayout) : BinaryMagnitude → String
  | .zero => "0.0"
  | .finite number => layout.decimalText (Decimal.shortest number)
  | .infinite => layout.infinity
  | .notANumber => layout.notANumber

/-- A floating-point word; a set sign bit shows on everything but a
non-number. -/
def wordText (layout : DecimalLayout) (format : BinaryFormat) (word : Nat) : String :=
  let magnitude := format.magnitude word
  let sign := if format.isNegative word && magnitude != .notANumber then "-" else ""
  sign ++ layout.magnitudeText magnitude

end DecimalLayout

end ClassDelta
