import Mathlib.Data.List.TakeWhile
import ClassDelta.Proofs.Text.Rounding

/-!
# Decimals read back

`Decimal.read` is the value of a decimal text, and every layout writes texts
with the value of the decimal (`DecimalLayout.read_decimalText`).  Where a
layout puts the point, and whether it writes an exponent, changes nothing about
that.

The text of a floating-point word therefore tells it apart from all others,
except that the non-numbers have one text between them
(`DecimalLayout.wordText_eq_iff`).
-/

namespace ClassDelta

/-! ## Whole numbers -/

/-- Nothing but decimal digits. -/
def IsDigits (text : List Char) : Prop := ∀ char ∈ text, char.isDigit = true

namespace IsDigits

variable {text front back : List Char}

theorem not_mem {mark : Char} (h : IsDigits text) (hmark : mark.isDigit = false) : mark ∉ text := by
  intro hmem
  rw [h mark hmem] at hmark
  contradiction

theorem append (hfront : IsDigits front) (hback : IsDigits back) : IsDigits (front ++ back) := by
  intro char hmem
  rcases List.mem_append.1 hmem with hmem | hmem
  · exact hfront char hmem
  · exact hback char hmem

theorem take (h : IsDigits text) (count : Nat) : IsDigits (text.take count) :=
  fun char hmem => h char (List.mem_of_mem_take hmem)

theorem drop (h : IsDigits text) (count : Nat) : IsDigits (text.drop count) :=
  fun char hmem => h char (List.mem_of_mem_drop hmem)

theorem zeros (count : Nat) : IsDigits (List.replicate count '0') :=
  fun _ hmem => List.eq_of_mem_replicate hmem ▸ rfl

end IsDigits

theorem isDigits_toDigits (number : Nat) : IsDigits (Nat.toDigits 10 number) :=
  fun _ hmem => Nat.isDigit_of_mem_toDigits (by decide) (by decide) hmem

/-- The value of digits, after a minus sign or not. -/
def readInt : List Char → Int
  | '-' :: digits => -Nat.ofDigitChars 10 digits 0
  | digits => Nat.ofDigitChars 10 digits 0

theorem readInt_digits {text : List Char} (h : IsDigits text) :
    readInt text = Nat.ofDigitChars 10 text 0 := by
  unfold readInt
  split
  · exact absurd (h '-' (by simp)) (by decide)
  · rfl

theorem toList_toString (number : Int) :
    (toString number).toList =
      (if 0 ≤ number then [] else ['-']) ++ Nat.toDigits 10 number.natAbs := by
  rw [Int.toString_eq_repr, Int.repr_eq_if]
  split_ifs with hsign
  · rw [Nat.toList_repr, show number.toNat = number.natAbs by omega]
    rfl
  · rw [String.toList_append, Nat.toList_repr, show (-number).toNat = number.natAbs by omega]
    rfl

theorem readInt_toString (number : Int) : readInt (toString number).toList = number := by
  rw [toList_toString]
  split_ifs with hsign
  · rw [List.nil_append, readInt_digits (isDigits_toDigits _), Nat.ofDigitChars_ten_toDigits]
    omega
  · show -(Nat.ofDigitChars 10 (Nat.toDigits 10 _) 0 : Int) = number
    rw [Nat.ofDigitChars_ten_toDigits]
    omega

/-! ## Reading decimals -/

section Marks

variable {mark : Char} {before after text : List Char}

theorem takeWhile_ne (h : mark ∉ before) :
    (before ++ mark :: after).takeWhile (· ≠ mark) = before := by
  rw [List.takeWhile_append_of_pos]
  · simp
  · intro char hmem
    simpa using ne_of_mem_of_not_mem hmem h

theorem dropWhile_ne (h : mark ∉ before) :
    (before ++ mark :: after).dropWhile (· ≠ mark) = mark :: after := by
  rw [List.dropWhile_append_of_pos]
  · simp
  · intro char hmem
    simpa using ne_of_mem_of_not_mem hmem h

theorem dropWhile_ne_self (h : mark ∉ text) : text.dropWhile (· ≠ mark) = [] := by
  rw [List.dropWhile_eq_nil_iff]
  intro char hmem
  simpa using ne_of_mem_of_not_mem hmem h

end Marks

namespace Decimal

/-- The value of digits, with or without a point among them. -/
def readMantissa (text : List Char) : ℚ :=
  match text.dropWhile (· ≠ '.') with
  | [] => Nat.ofDigitChars 10 text 0
  | _ :: fraction =>
    Nat.ofDigitChars 10 (text.takeWhile (· ≠ '.') ++ fraction) 0 / 10 ^ fraction.length

/-- The value of a decimal text, with or without a power of ten behind the
letter `e`. -/
def read (text : List Char) : ℚ :=
  match text.dropWhile (· ≠ 'e') with
  | [] => readMantissa text
  | _ :: exponent => readMantissa (text.takeWhile (· ≠ 'e')) * 10 ^ readInt exponent

variable {whole fraction mantissa : List Char}

theorem readMantissa_whole (h : IsDigits whole) :
    readMantissa whole = Nat.ofDigitChars 10 whole 0 := by
  unfold readMantissa
  rw [dropWhile_ne_self (h.not_mem rfl)]

theorem readMantissa_point (h : IsDigits whole) :
    readMantissa (whole ++ '.' :: fraction) =
      Nat.ofDigitChars 10 (whole ++ fraction) 0 / 10 ^ fraction.length := by
  unfold readMantissa
  rw [dropWhile_ne (h.not_mem rfl), takeWhile_ne (h.not_mem rfl)]

theorem not_mem_point {mark : Char} (hwhole : IsDigits whole) (hfraction : IsDigits fraction)
    (hmark : mark.isDigit = false) (hne : mark ≠ '.') : mark ∉ whole ++ '.' :: fraction := by
  rw [List.mem_append, List.mem_cons]
  simp [hwhole.not_mem hmark, hfraction.not_mem hmark, hne]

theorem read_point (hwhole : IsDigits whole) (hfraction : IsDigits fraction) :
    read (whole ++ '.' :: fraction) =
      Nat.ofDigitChars 10 (whole ++ fraction) 0 / 10 ^ fraction.length := by
  unfold read
  rw [dropWhile_ne_self (not_mem_point hwhole hfraction rfl (by decide))]
  exact readMantissa_point hwhole

/-- A point with nothing behind it can be left out. -/
theorem read_exponent (hwhole : IsDigits whole) (hfraction : IsDigits fraction) (exponent : Int) :
    read (whole ++ (if fraction.isEmpty then [] else '.' :: fraction) ++
      'e' :: (toString exponent).toList) =
        Nat.ofDigitChars 10 (whole ++ fraction) 0 / 10 ^ fraction.length * 10 ^ exponent := by
  have hread {mantissa : List Char} (h : 'e' ∉ mantissa) :
      read (mantissa ++ 'e' :: (toString exponent).toList) =
        readMantissa mantissa * 10 ^ exponent := by
    unfold read
    rw [dropWhile_ne h, takeWhile_ne h]
    dsimp only
    rw [readInt_toString]
  split_ifs with hempty
  · obtain rfl := List.isEmpty_iff.1 hempty
    rw [List.append_nil, hread (hwhole.not_mem rfl), readMantissa_whole hwhole]
    simp
  · rw [hread (not_mem_point hwhole hfraction rfl (by decide)), readMantissa_point hwhole]

/-! ## Digits of decimals -/

variable (decimal : Decimal) (places : Nat)

theorem toList_digits : decimal.digits.toList = Nat.toDigits 10 decimal.coefficient :=
  Nat.toList_repr

theorem isDigits_digits : IsDigits decimal.digits.toList := by
  rw [toList_digits]
  exact isDigits_toDigits decimal.coefficient

theorem ofDigitChars_digits :
    Nat.ofDigitChars 10 decimal.digits.toList 0 = decimal.coefficient := by
  rw [toList_digits, Nat.ofDigitChars_ten_toDigits]

/-- Zeros in front of the digits do not count. -/
theorem ofDigitChars_padded :
    Nat.ofDigitChars 10 ('0' :: (List.replicate places '0' ++ decimal.digits.toList)) 0 =
      decimal.coefficient := by
  rw [← List.cons_append, ← List.replicate_succ, Nat.ofDigitChars_append,
    Nat.ofDigitChars_replicate_zero, Nat.mul_zero, ofDigitChars_digits]

/-- Each zero behind the digits is a factor of ten. -/
theorem ofDigitChars_scaled :
    Nat.ofDigitChars 10 (decimal.digits.toList ++ List.replicate places '0') 0 =
      10 ^ places * decimal.coefficient := by
  rw [Nat.ofDigitChars_append, Nat.ofDigitChars_replicate_zero, ofDigitChars_digits]

theorem value_eq_mul (h : decimal.exponent = places) :
    decimal.value = decimal.coefficient * 10 ^ places := by
  unfold value
  rw [h, zpow_natCast]

theorem value_eq_div (h : decimal.exponent = -places) :
    decimal.value = decimal.coefficient / 10 ^ places := by
  unfold value
  rw [h, zpow_neg, zpow_natCast, div_eq_mul_inv]

end Decimal

/-! ## Layouts -/

/-- The magnitudes that are written in digits. -/
def BinaryMagnitude.isInDigits : BinaryMagnitude → Bool
  | .zero | .finite _ => true
  | .infinite | .notANumber => false

namespace DecimalLayout

open Decimal

theorem toList_zeros (count : Nat) : (zeros count).toList = List.replicate count '0' :=
  String.toList_ofList

variable (decimal : Decimal)

theorem length_digits : decimal.digits.toList.length = decimal.digits.length := String.length_toList

theorem read_wholeNumber {places : Nat} (h : decimal.exponent = places) :
    read (decimal.digits ++ zeros places ++ ".0").toList = decimal.value := by
  have hlist : (decimal.digits ++ zeros places ++ ".0").toList =
      (decimal.digits.toList ++ List.replicate places '0') ++ '.' :: List.replicate 1 '0' := by
    simp [toList_zeros]
  rw [hlist, read_point ((isDigits_digits decimal).append (.zeros places)) (.zeros 1),
    List.append_assoc, List.replicate_append_replicate, ofDigitChars_scaled, List.length_replicate,
    value_eq_mul decimal places h]
  push_cast
  ring

theorem read_smallFraction {places : Nat} (h : decimal.exponent = -places)
    (hsmall : decimal.digits.length ≤ places) :
    read ("0." ++ zeros (places - decimal.digits.length) ++ decimal.digits).toList =
      decimal.value := by
  have hlist : ("0." ++ zeros (places - decimal.digits.length) ++ decimal.digits).toList =
      List.replicate 1 '0' ++ '.' ::
        (List.replicate (places - decimal.digits.length) '0' ++ decimal.digits.toList) := by
    simp [toList_zeros]
  have hfraction : (List.replicate (places - decimal.digits.length) '0' ++
      decimal.digits.toList).length = places := by
    rw [List.length_append, List.length_replicate, length_digits]
    omega
  rw [hlist, read_point (.zeros 1) (.append (.zeros _) (isDigits_digits decimal)), hfraction,
    List.replicate_one, List.singleton_append, ofDigitChars_padded, value_eq_div decimal places h]

theorem read_mixedFraction {places : Nat} (h : decimal.exponent = -places)
    (hlarge : ¬ decimal.digits.length ≤ places) :
    read (String.ofList (decimal.digits.toList.take (decimal.digits.length - places)) ++ "." ++
      String.ofList (decimal.digits.toList.drop (decimal.digits.length - places))).toList =
        decimal.value := by
  have hdigits := isDigits_digits decimal
  have hlist : (String.ofList (decimal.digits.toList.take (decimal.digits.length - places)) ++
      "." ++ String.ofList (decimal.digits.toList.drop (decimal.digits.length - places))).toList =
      decimal.digits.toList.take (decimal.digits.length - places) ++ '.' ::
        decimal.digits.toList.drop (decimal.digits.length - places) := by
    simp
  have hfraction :
      (decimal.digits.toList.drop (decimal.digits.length - places)).length = places := by
    rw [List.length_drop, length_digits]
    omega
  rw [hlist, read_point (hdigits.take _) (hdigits.drop _), hfraction, List.take_append_drop,
    ofDigitChars_digits, value_eq_div decimal places h]

/-- Without an exponent, the point stands where the whole number ends. -/
theorem read_positional : read (positional decimal).toList = decimal.value := by
  unfold positional
  dsimp only
  split_ifs with hwhole hsmall
  · exact read_wholeNumber decimal (Int.toNat_of_nonneg hwhole).symm
  · exact read_smallFraction decimal (by omega) hsmall
  · exact read_mixedFraction decimal (by omega) hsmall

/-- With an exponent, the point stands behind the first digit. -/
theorem read_scientific : read (scientific decimal).toList = decimal.value := by
  have hdigits := isDigits_digits decimal
  have hpos : 0 < decimal.digits.toList.length := by
    rw [toList_digits]
    exact Nat.length_toDigits_pos
  have hrest : (decimal.digits.toList.drop 1).length + 1 = decimal.digits.length := by
    rw [List.length_drop, ← length_digits]
    omega
  have hleading : decimal.leadingExponent =
      decimal.exponent + (decimal.digits.toList.drop 1).length := by
    unfold leadingExponent
    omega
  have hlist : (scientific decimal).toList =
      decimal.digits.toList.take 1 ++ (if (decimal.digits.toList.drop 1).isEmpty then []
        else '.' :: decimal.digits.toList.drop 1) ++
          'e' :: (toString decimal.leadingExponent).toList := by
    unfold scientific
    dsimp only
    split_ifs <;> simp
  rw [hlist, read_exponent (hdigits.take 1) (hdigits.drop 1), List.take_append_drop,
    ofDigitChars_digits, hleading, zpow_add₀ (by norm_num), zpow_natCast]
  unfold Decimal.value
  field_simp

/-- Every layout writes the value of the decimal. -/
theorem read_decimalText (layout : DecimalLayout) :
    read (layout.decimalText decimal).toList = decimal.value := by
  unfold decimalText
  split
  · exact read_positional decimal
  · exact read_scientific decimal

/-! ## First characters -/

/-- The text begins with a digit. -/
def StartsWithDigit (text : String) : Prop := text.toList.head?.any Char.isDigit = true

instance : DecidablePred StartsWithDigit := fun _ => inferInstanceAs (Decidable (_ = true))

/-- Decimals begin with a digit. -/
theorem startsWithDigit_decimalText (layout : DecimalLayout) :
    StartsWithDigit (layout.decimalText decimal) := by
  have hdigits := isDigits_digits decimal
  have hne : decimal.digits.toList ≠ [] := by
    rw [toList_digits]
    exact Nat.toDigits_ne_nil
  obtain ⟨digit, rest, heq⟩ := List.exists_cons_of_ne_nil hne
  have hdigit : digit.isDigit = true := hdigits digit (by simp [heq])
  unfold StartsWithDigit decimalText positional scientific
  dsimp only
  split_ifs with hform hwhole hsmall
  · simp [heq, hdigit]
  · simp
  · -- at least one digit stands in front of the point
    obtain ⟨count, hcount⟩ :
        ∃ count, decimal.digits.length - (-decimal.exponent).toNat = count + 1 :=
      ⟨decimal.digits.length - (-decimal.exponent).toNat - 1, by omega⟩
    simp [heq, hdigit, hcount]
  all_goals simp [heq, hdigit]

/-- The names for what is not finite are two words that do not look like
numbers. -/
structure NamesApart (layout : DecimalLayout) : Prop where
  ne : layout.infinity ≠ layout.notANumber
  infinity : ¬ StartsWithDigit layout.infinity ∧ layout.infinity.toList.head? ≠ some '-'
  notANumber : ¬ StartsWithDigit layout.notANumber ∧ layout.notANumber.toList.head? ≠ some '-'

/-! ## Words -/

variable {layout : DecimalLayout} {format : BinaryFormat} {word word' : Nat}

theorem startsWithDigit_zero : StartsWithDigit "0.0" := by decide

theorem read_zero : read "0.0".toList = 0 := by
  show read (List.replicate 1 '0' ++ '.' :: List.replicate 1 '0') = 0
  rw [read_point (.zeros 1) (.zeros 1)]
  simp [Nat.ofDigitChars]

/-- No magnitude begins with a minus sign. -/
theorem head_magnitudeText_ne (h : layout.NamesApart) (magnitude : BinaryMagnitude) :
    (layout.magnitudeText magnitude).toList.head? ≠ some '-' := by
  have hdigit {text : String} (hstarts : StartsWithDigit text) : text.toList.head? ≠ some '-' := by
    intro hminus
    unfold StartsWithDigit at hstarts
    rw [hminus] at hstarts
    exact absurd hstarts (by decide)
  cases magnitude with
  | zero => exact hdigit startsWithDigit_zero
  | finite number => exact hdigit (startsWithDigit_decimalText (shortest number) layout)
  | infinite => exact h.infinity.2
  | notANumber => exact h.notANumber.2

theorem startsWithDigit_magnitudeText_iff (h : layout.NamesApart) (magnitude : BinaryMagnitude) :
    StartsWithDigit (layout.magnitudeText magnitude) ↔ magnitude.isInDigits = true := by
  cases magnitude with
  | zero => exact iff_of_true startsWithDigit_zero rfl
  | finite number => exact iff_of_true (startsWithDigit_decimalText (shortest number) layout) rfl
  | infinite => exact iff_of_false h.infinity.1 Bool.false_ne_true
  | notANumber => exact iff_of_false h.notANumber.1 Bool.false_ne_true

/-- Magnitudes of words are told apart by their texts. -/
theorem magnitudeText_inj (h : layout.NamesApart)
    (heq : layout.magnitudeText (format.magnitude word) =
      layout.magnitudeText (format.magnitude word')) :
    format.magnitude word = format.magnitude word' := by
  have hdigits : (format.magnitude word).isInDigits = (format.magnitude word').isInDigits := by
    rw [Bool.eq_iff_iff, ← startsWithDigit_magnitudeText_iff h,
      ← startsWithDigit_magnitudeText_iff h, heq]
  have hread := congrArg (fun text => read text.toList) heq
  have hpositive {word : Nat} {number : BinaryNumber}
      (hword : format.magnitude word = .finite number) :
      0 < read (layout.magnitudeText (.finite number)).toList := by
    have hpos := (format.holds_of_magnitude hword).pos
    show 0 < read (layout.decimalText (shortest number)).toList
    rw [read_decimalText]
    exact (roundsFrom_shortest hpos).pos hpos
  cases hword : format.magnitude word <;> cases hword' : format.magnitude word' <;>
    rw [hword, hword'] at heq hread hdigits
  case zero.finite => exact absurd (read_zero.symm.trans hread) (hpositive hword').ne
  case finite.zero => exact absurd (hread.trans read_zero) (hpositive hword).ne'
  case finite.finite number number' =>
    have hvalue : (shortest number).value = (shortest number').value := by
      rw [← read_decimalText _ layout, ← read_decimalText _ layout]
      exact hread
    rw [value_shortest_inj (format.holds_of_magnitude hword) (format.holds_of_magnitude hword')
      hvalue]
  case infinite.notANumber => exact absurd heq h.ne
  case notANumber.infinite => exact absurd heq.symm h.ne
  -- Otherwise they are the same, or one of them alone is written in digits.
  all_goals first | rfl | contradiction

/-- A sign in front of a magnitude can be told from the magnitude. -/
theorem sign_append_inj (h : layout.NamesApart) {sign sign' : Bool}
    {magnitude magnitude' : BinaryMagnitude}
    (heq : (if sign then "-" else "") ++ layout.magnitudeText magnitude =
      (if sign' then "-" else "") ++ layout.magnitudeText magnitude') :
    sign = sign' ∧ layout.magnitudeText magnitude = layout.magnitudeText magnitude' := by
  have hhead := head_magnitudeText_ne h magnitude
  have hhead' := head_magnitudeText_ne h magnitude'
  have hminus (text : String) : ("-" ++ text).toList.head? = some '-' := by simp
  cases sign <;> cases sign' <;> simp only [Bool.false_eq_true, if_true, if_false,
    String.empty_append] at heq
  case false.false => exact ⟨rfl, heq⟩
  case false.true => exact absurd (heq ▸ hminus _) hhead
  case true.false => exact absurd (heq ▸ hminus _) hhead'
  case true.true => exact ⟨rfl, (String.append_right_inj "-").1 heq⟩

/-- Words have the same text when they are the same, or stand for no number
both. -/
theorem wordText_eq_iff (h : layout.NamesApart) (hword : word < 2 ^ format.width)
    (hword' : word' < 2 ^ format.width) :
    layout.wordText format word = layout.wordText format word' ↔
      word = word' ∨ format.IsNotANumber word ∧ format.IsNotANumber word' := by
  rw [← format.magnitude_eq_notANumber_iff word, ← format.magnitude_eq_notANumber_iff word']
  constructor
  · intro heq
    obtain ⟨hsign, htext⟩ := sign_append_inj h heq
    have hmagnitude := magnitudeText_inj h htext
    by_cases hnone : format.magnitude word = .notANumber
    · exact .inr ⟨hnone, hmagnitude ▸ hnone⟩
    · have hnone' : format.magnitude word' ≠ .notANumber := hmagnitude ▸ hnone
      have hnegative : format.isNegative word = format.isNegative word' := by
        rw [bne_iff_ne.2 hnone, bne_iff_ne.2 hnone', Bool.and_true, Bool.and_true] at hsign
        exact hsign
      rw [format.magnitude_eq_notANumber_iff] at hnone
      exact .inl (format.word_inj hword hword' hnegative (format.magnitude_inj hnone hmagnitude))
  · rintro (rfl | ⟨hnone, hnone'⟩)
    · rfl
    · unfold wordText
      rw [hnone, hnone']
      simp

end DecimalLayout
end ClassDelta
