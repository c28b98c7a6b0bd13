import ClassDelta.Text.Utf16

/-!
# Units and characters

`Utf16.encodeChar` and `Utf16.decode` are inverse to each other.
`decode_flatMap_encodeChar` is the one direction: the units of any characters
spell those characters.  `flatMap_encodeChar_of_decode` is the other: units
that spell characters are the units of these, so no two unit lists spell the
same text.

Both follow from what happens at one character, which is one unit outside of
the surrogates or a pair of a high and a low one.
-/

namespace ClassDelta.Utf16

/-! ## One character -/

/-- A character is no surrogate. -/
theorem toNat_valid (char : Char) :
    char.toNat < 0xD800 ∨ 0xDFFF < char.toNat ∧ char.toNat < 0x110000 := char.valid

theorem isHigh_iff (unit : UInt16) :
    isHigh unit = true ↔ 0xD800 ≤ unit.toNat ∧ unit.toNat < 0xDC00 := by
  simp [isHigh]

theorem isLow_iff (unit : UInt16) :
    isLow unit = true ↔ 0xDC00 ≤ unit.toNat ∧ unit.toNat < 0xE000 := by
  simp [isLow]

/-- The number of a character that is given by its number. -/
theorem toNat_ofNat_of_valid {code : Nat} (h : code.isValidChar) :
    (Char.ofNat code).toNat = code := by
  unfold Char.ofNat
  rw [dif_pos h]
  rfl

/-- The number that a pair stands for is that of a character above `U+FFFF`. -/
theorem toNat_pairChar {high low : UInt16} (hhigh : isHigh high = true) (hlow : isLow low = true) :
    (pairChar high low).toNat =
      0x10000 + (high.toNat - 0xD800) * 0x400 + (low.toNat - 0xDC00) := by
  rw [isHigh_iff] at hhigh
  rw [isLow_iff] at hlow
  exact toNat_ofNat_of_valid (Or.inr ⟨by omega, by omega⟩)

/-- Reading the units of a character gives the character. -/
theorem decodeAfter_encodeChar (before : List Char) (char : Char) (rest : List UInt16) :
    decodeAfter before (encodeChar char ++ rest) = decodeAfter (char :: before) rest := by
  have hvalid := toNat_valid char
  unfold encodeChar
  by_cases hsmall : char.toNat < 0x10000
  · have hunit : (UInt16.ofNat char.toNat).toNat = char.toNat := by
      rw [UInt16.toNat_ofNat']
      omega
    have hhigh : ¬ isHigh (UInt16.ofNat char.toNat) = true := by
      rw [isHigh_iff, hunit]
      omega
    have hlow : ¬ isLow (UInt16.ofNat char.toNat) = true := by
      rw [isLow_iff, hunit]
      omega
    simp only [hsmall, if_true, List.cons_append, List.nil_append]
    rw [decodeAfter.eq_def]
    simp only [hhigh, hlow, hunit, Bool.false_eq_true, if_false, Char.ofNat_toNat]
  · have hhighNat : (UInt16.ofNat (0xD800 + (char.toNat - 0x10000) / 0x400)).toNat =
        0xD800 + (char.toNat - 0x10000) / 0x400 := by
      rw [UInt16.toNat_ofNat']
      omega
    have hlowNat : (UInt16.ofNat (0xDC00 + (char.toNat - 0x10000) % 0x400)).toNat =
        0xDC00 + (char.toNat - 0x10000) % 0x400 := by
      rw [UInt16.toNat_ofNat']
      omega
    have hhigh : isHigh (UInt16.ofNat (0xD800 + (char.toNat - 0x10000) / 0x400)) = true := by
      rw [isHigh_iff, hhighNat]
      omega
    have hlow : isLow (UInt16.ofNat (0xDC00 + (char.toNat - 0x10000) % 0x400)) = true := by
      rw [isLow_iff, hlowNat]
      omega
    have hpair : pairChar (UInt16.ofNat (0xD800 + (char.toNat - 0x10000) / 0x400))
        (UInt16.ofNat (0xDC00 + (char.toNat - 0x10000) % 0x400)) = char := by
      rw [← Char.toNat_inj, toNat_pairChar hhigh hlow, hhighNat, hlowNat]
      omega
    simp only [hsmall, if_false, List.cons_append, List.nil_append]
    rw [decodeAfter, if_pos hhigh, if_pos hlow, hpair]

/-- A unit that is no surrogate is the only unit of its character. -/
theorem encodeChar_ofNat {unit : UInt16} (hhigh : ¬ isHigh unit = true)
    (hlow : ¬ isLow unit = true) : encodeChar (Char.ofNat unit.toNat) = [unit] := by
  rw [isHigh_iff] at hhigh
  rw [isLow_iff] at hlow
  have hlt := unit.toNat_lt
  have hcode : (Char.ofNat unit.toNat).toNat = unit.toNat :=
    toNat_ofNat_of_valid (by unfold Nat.isValidChar; omega)
  have hsmall : unit.toNat < 0x10000 := hlt
  simp only [encodeChar, hcode, hsmall, if_true, UInt16.ofNat_toNat]

/-- A pair is the two units of the character it stands for. -/
theorem encodeChar_pairChar {high low : UInt16} (hhigh : isHigh high = true)
    (hlow : isLow low = true) : encodeChar (pairChar high low) = [high, low] := by
  have hcode := toNat_pairChar hhigh hlow
  rw [isHigh_iff] at hhigh
  rw [isLow_iff] at hlow
  have hlarge : ¬ (pairChar high low).toNat < 0x10000 := by omega
  have hfirst : UInt16.ofNat (0xD800 + ((pairChar high low).toNat - 0x10000) / 0x400) = high := by
    rw [← UInt16.toNat_inj, UInt16.toNat_ofNat', hcode]
    omega
  have hsecond : UInt16.ofNat (0xDC00 + ((pairChar high low).toNat - 0x10000) % 0x400) = low := by
    rw [← UInt16.toNat_inj, UInt16.toNat_ofNat', hcode]
    omega
  simp only [encodeChar, hlarge, if_false, hfirst, hsecond]

/-! ## Whole texts -/

theorem decodeAfter_flatMap_encodeChar (before chars : List Char) :
    decodeAfter before (chars.flatMap encodeChar) = some (before.reverse ++ chars) := by
  induction chars generalizing before with
  | nil => simp [decodeAfter]
  | cons char chars ih =>
    rw [List.flatMap_cons, decodeAfter_encodeChar, ih]
    simp

/-- The units of characters spell these characters. -/
theorem decode_flatMap_encodeChar (chars : List Char) :
    decode (chars.flatMap encodeChar) = some chars :=
  decodeAfter_flatMap_encodeChar [] chars

/-- What is read goes behind the characters read before, and has the units it
was read from. -/
theorem decodeAfter_eq_some {before chars : List Char} {units : List UInt16}
    (h : decodeAfter before units = some chars) :
    ∃ later, chars = before.reverse ++ later ∧ later.flatMap encodeChar = units := by
  fun_induction decodeAfter before units with
  | case1 before =>
    cases h
    exact ⟨[], by simp, rfl⟩
  | case2 before unit hhigh low rest hlow ih =>
    obtain ⟨later, rfl, rfl⟩ := ih h
    exact ⟨pairChar unit low :: later, by simp, by simp [encodeChar_pairChar hhigh hlow]⟩
  | case3 => cases h
  | case4 => cases h
  | case5 => cases h
  | case6 before unit rest hhigh hlow ih =>
    obtain ⟨later, rfl, rfl⟩ := ih h
    exact ⟨Char.ofNat unit.toNat :: later, by simp, by simp [encodeChar_ofNat hhigh hlow]⟩

/-- Units that spell characters are the units of these. -/
theorem flatMap_encodeChar_of_decode {units : List UInt16} {chars : List Char}
    (h : decode units = some chars) : chars.flatMap encodeChar = units := by
  obtain ⟨later, rfl, hlater⟩ := decodeAfter_eq_some h
  exact hlater

end ClassDelta.Utf16
