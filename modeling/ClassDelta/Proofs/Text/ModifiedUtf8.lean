import ClassDelta.Proofs.Bytes.Rewriting
import ClassDelta.Proofs.Text.Utf16
import ClassDelta.Text.ModifiedUtf8
import Mathlib.Data.List.Chain

/-!
# Modified UTF-8

The text encoding of class files, written and read.

* `decode_encode`: what was written reads back, and `encode_readable` adds which
  bytes are never written.
* `rewrites_encode`: what was read takes no more bytes when it is written again,
  and the same bytes exactly if every unit had its shortest form.  The reader
  also takes longer forms, so it is not enough that bytes can be read
  (`eq_encode_iff`).

Between bytes and characters stand UTF-16 units.  `unitsAfter_encodeUnit` and
`rewrites_two`, `rewrites_three` treat the bytes of one unit; the characters are
the business of `Utf16`.  `decode_eq_decodeUnits` removes the short cut for plain
ASCII first.
-/

namespace ClassDelta.ModifiedUtf8

/-! ## The bytes of one unit -/

theorem continuation_ofNat {low : Nat} (h : low < 0x40) :
    continuation (UInt8.ofNat (0x80 + low)) = some low := by
  have hbyte : (UInt8.ofNat (0x80 + low)).toNat = 0x80 + low := by
    rw [UInt8.toNat_ofNat']
    omega
  have hlow : (0x80 + low) % 0x40 = low := by omega
  have hrange : 0x80 ≤ 0x80 + low ∧ 0x80 + low < 0xC0 := by omega
  rw [continuation, hbyte, if_pos hrange, hlow]

theorem continuation_eq_some {byte : UInt8} {low : Nat} (h : continuation byte = some low) :
    byte.toNat = 0x80 + low ∧ low < 0x40 := by
  unfold continuation at h
  split at h
  · cases h
    omega
  · cases h

/-- Reading the bytes of a unit gives the unit. -/
theorem unitsAfter_encodeUnit (before : List UInt16) (unit : UInt16) (rest : Bytes) :
    unitsAfter before (encodeUnit unit ++ rest) = unitsAfter (unit :: before) rest := by
  have hlt := unit.toNat_lt
  unfold encodeUnit
  by_cases hone : 0 < unit.toNat ∧ unit.toNat < 0x80
  · have hlead : (UInt8.ofNat unit.toNat).toNat = unit.toNat := by
      rw [UInt8.toNat_ofNat']
      omega
    simp only [hone, and_self, if_true, List.cons_append, List.nil_append]
    rw [unitsAfter.eq_def]
    simp only [hlead, hone, and_self, if_true, UInt16.ofNat_toNat]
  · by_cases htwo : unit.toNat < 0x800
    · have hlead : (UInt8.ofNat (0xC0 + unit.toNat / 0x40)).toNat = 0xC0 + unit.toNat / 0x40 := by
        rw [UInt8.toNat_ofNat']
        omega
      have hnotOne : ¬ (0 < 0xC0 + unit.toNat / 0x40 ∧ 0xC0 + unit.toNat / 0x40 < 0x80) := by omega
      have hrange : 0xC0 ≤ 0xC0 + unit.toNat / 0x40 ∧ 0xC0 + unit.toNat / 0x40 < 0xE0 := by omega
      have hvalue : (0xC0 + unit.toNat / 0x40) % 0x20 * 0x40 + unit.toNat % 0x40 = unit.toNat := by
        omega
      simp only [hone, htwo, if_false, if_true, List.cons_append, List.nil_append]
      rw [unitsAfter.eq_def]
      simp only [hlead, if_neg hnotOne, if_pos hrange, hvalue, UInt16.ofNat_toNat,
        continuation_ofNat (Nat.mod_lt unit.toNat (by decide : 0 < 0x40))]
    · have hlead : (UInt8.ofNat (0xE0 + unit.toNat / 0x1000)).toNat =
          0xE0 + unit.toNat / 0x1000 := by
        rw [UInt8.toNat_ofNat']
        omega
      have hnotOne : ¬ (0 < 0xE0 + unit.toNat / 0x1000 ∧ 0xE0 + unit.toNat / 0x1000 < 0x80) := by
        omega
      have hnotTwo : ¬ (0xC0 ≤ 0xE0 + unit.toNat / 0x1000 ∧
          0xE0 + unit.toNat / 0x1000 < 0xE0) := by omega
      have hrange : 0xE0 ≤ 0xE0 + unit.toNat / 0x1000 ∧ 0xE0 + unit.toNat / 0x1000 < 0xF0 := by
        omega
      have hvalue : (0xE0 + unit.toNat / 0x1000) % 0x10 * 0x1000 + unit.toNat / 0x40 % 0x40 * 0x40 +
          unit.toNat % 0x40 = unit.toNat := by omega
      simp only [hone, htwo, if_false, List.cons_append, List.nil_append]
      rw [unitsAfter.eq_def]
      simp only [hlead, if_neg hnotOne, if_neg hnotTwo, if_pos hrange, hvalue, UInt16.ofNat_toNat,
        continuation_ofNat (Nat.mod_lt unit.toNat (by decide : 0 < 0x40)),
        continuation_ofNat (Nat.mod_lt (unit.toNat / 0x40) (by decide : 0 < 0x40))]

/-- A unit takes one, two or three bytes according to its size. -/
theorem length_encodeUnit (unit : UInt16) :
    (encodeUnit unit).length =
      if 0 < unit.toNat ∧ unit.toNat < 0x80 then 1 else if unit.toNat < 0x800 then 2 else 3 := by
  simp only [encodeUnit]
  split
  · rfl
  · split <;> rfl

/-- No byte of a unit is zero, and none starts a form of four bytes. -/
theorem mem_encodeUnit {unit : UInt16} {byte : UInt8} (h : byte ∈ encodeUnit unit) :
    0 < byte.toNat ∧ byte.toNat < 0xF0 := by
  have hlt := unit.toNat_lt
  unfold encodeUnit at h
  dsimp only at h
  split at h
  · rw [List.mem_singleton] at h
    subst h
    rw [UInt8.toNat_ofNat']
    omega
  · split at h
    · simp only [List.mem_cons, List.not_mem_nil, or_false] at h
      rcases h with rfl | rfl <;> rw [UInt8.toNat_ofNat'] <;> omega
    · simp only [List.mem_cons, List.not_mem_nil, or_false] at h
      rcases h with rfl | rfl | rfl <;> rw [UInt8.toNat_ofNat'] <;> omega

/-! ## Forms that are longer than they need to be -/

/-- The two bytes start a form of more bytes than its unit needs: two bytes for
ASCII other than zero, or three for a unit below `0x800`. -/
def StartsLongForm (first second : UInt8) : Prop :=
  first.toNat = 0xC0 ∧ second.toNat ≠ 0x80 ∨ first.toNat = 0xC1 ∨
    first.toNat = 0xE0 ∧ second.toNat < 0xA0

instance (first second : UInt8) : Decidable (StartsLongForm first second) :=
  inferInstanceAs (Decidable (_ ∨ _ ∨ _))

/-- No two bytes in a row start a form that is longer than it needs to be. -/
def IsShortest (bytes : Bytes) : Prop :=
  bytes.IsChain fun first second => ¬ StartsLongForm first second

instance : DecidablePred IsShortest :=
  fun bytes => inferInstanceAs (Decidable (bytes.IsChain _))

/-- ASCII and continuation bytes start no form of several bytes. -/
theorem isShortest_cons {byte : UInt8} (h : byte.toNat < 0xC0) (rest : Bytes) :
    IsShortest (byte :: rest) ↔ IsShortest rest := by
  unfold IsShortest
  rw [List.isChain_cons]
  refine and_iff_right fun second _ hlong => ?_
  unfold StartsLongForm at hlong
  omega

theorem isShortest_two {first second : UInt8} (h : second.toNat < 0xC0) (rest : Bytes) :
    IsShortest (first :: second :: rest) ↔ ¬ StartsLongForm first second ∧ IsShortest rest := by
  rw [← isShortest_cons h rest]
  exact List.isChain_cons_cons

/-- A unit read from one byte is written as this byte. -/
theorem encodeUnit_one {first : UInt8} (h : 0 < first.toNat ∧ first.toNat < 0x80) :
    encodeUnit (UInt16.ofNat first.toNat) = [first] := by
  have hcode : (UInt16.ofNat first.toNat).toNat = first.toNat := by
    rw [UInt16.toNat_ofNat']
    omega
  unfold encodeUnit
  simp only [hcode, h, and_self, if_true, UInt8.ofNat_toNat]

/-- A unit read from two bytes is written as these, unless one was enough. -/
theorem rewrites_two {first second : UInt8} {low : Nat}
    (hfirst : 0xC0 ≤ first.toNat ∧ first.toNat < 0xE0) (hsecond : continuation second = some low) :
    Rewrites (encodeUnit (UInt16.ofNat (first.toNat % 0x20 * 0x40 + low))) [first, second]
      (¬ StartsLongForm first second) := by
  obtain ⟨hbyte, hlow⟩ := continuation_eq_some hsecond
  have hcode : (UInt16.ofNat (first.toNat % 0x20 * 0x40 + low)).toNat =
      first.toNat % 0x20 * 0x40 + low := by
    rw [UInt16.toNat_ofNat']
    omega
  unfold StartsLongForm
  by_cases hone : 0 < first.toNat % 0x20 * 0x40 + low ∧ first.toNat % 0x20 * 0x40 + low < 0x80
  · refine .of_shorter ?_ (by omega)
    rw [length_encodeUnit, hcode, if_pos hone]
    exact Nat.lt_succ_self 1
  · have htwo : first.toNat % 0x20 * 0x40 + low < 0x800 := by omega
    have hhead : UInt8.ofNat (0xC0 + (first.toNat % 0x20 * 0x40 + low) / 0x40) = first := by
      rw [← UInt8.toNat_inj, UInt8.toNat_ofNat']
      omega
    have htail : UInt8.ofNat (0x80 + (first.toNat % 0x20 * 0x40 + low) % 0x40) = second := by
      rw [← UInt8.toNat_inj, UInt8.toNat_ofNat']
      omega
    refine .of_eq ?_ (by omega)
    unfold encodeUnit
    simp only [hcode, if_neg hone, if_pos htwo, hhead, htail]

/-- A unit read from three bytes is written as these, unless two were enough. -/
theorem rewrites_three {first second third : UInt8} {middle low : Nat}
    (hfirst : 0xE0 ≤ first.toNat ∧ first.toNat < 0xF0)
    (hsecond : continuation second = some middle) (hthird : continuation third = some low) :
    Rewrites (encodeUnit (UInt16.ofNat (first.toNat % 0x10 * 0x1000 + middle * 0x40 + low)))
      [first, second, third] (¬ StartsLongForm first second) := by
  obtain ⟨hbyte, hmiddle⟩ := continuation_eq_some hsecond
  obtain ⟨hbyte', hlow⟩ := continuation_eq_some hthird
  generalize hcode : first.toNat % 0x10 * 0x1000 + middle * 0x40 + low = code
  have hunit : (UInt16.ofNat code).toNat = code := by
    rw [UInt16.toNat_ofNat']
    omega
  unfold StartsLongForm
  by_cases htwo : code < 0x800
  · refine .of_shorter ?_ (by omega)
    rw [length_encodeUnit, hunit, if_pos htwo]
    show _ < 3
    split <;> omega
  · have hone : ¬ (0 < code ∧ code < 0x80) := by omega
    have hhead : UInt8.ofNat (0xE0 + code / 0x1000) = first := by
      rw [← UInt8.toNat_inj, UInt8.toNat_ofNat']
      omega
    have hmid : UInt8.ofNat (0x80 + code / 0x40 % 0x40) = second := by
      rw [← UInt8.toNat_inj, UInt8.toNat_ofNat']
      omega
    have htail : UInt8.ofNat (0x80 + code % 0x40) = third := by
      rw [← UInt8.toNat_inj, UInt8.toNat_ofNat']
      omega
    refine .of_eq ?_ (by omega)
    unfold encodeUnit
    simp only [hunit, if_neg hone, if_neg htwo, hhead, hmid, htail]

/-! ## Bytes and units -/

theorem unitsAfter_flatMap_encodeUnit (before units : List UInt16) :
    unitsAfter before (units.flatMap encodeUnit) = some (before.reverse ++ units) := by
  induction units generalizing before with
  | nil => simp [unitsAfter]
  | cons unit units ih =>
    rw [List.flatMap_cons, unitsAfter_encodeUnit, ih]
    simp

/-- What is read goes behind the units read before.  Writing it again takes the
bytes it was read from, or fewer where a form was longer than it had to be. -/
theorem rewrites_of_unitsAfter {before units : List UInt16} {bytes : Bytes}
    (h : unitsAfter before bytes = some units) :
    ∃ later, units = before.reverse ++ later ∧
      Rewrites (later.flatMap encodeUnit) bytes (IsShortest bytes) := by
  fun_induction unitsAfter before bytes with
  | case1 before =>
    cases h
    exact ⟨[], by simp, .of_eq rfl List.IsChain.nil⟩
  | case2 before first rest lead hone ih =>
    -- one byte, which is the shortest there is
    obtain ⟨later, rfl, hlater⟩ := ih h
    have hunit : Rewrites (encodeUnit (UInt16.ofNat lead)) [first] True :=
      .of_eq (encodeUnit_one hone) trivial
    refine ⟨UInt16.ofNat lead :: later, by simp, ?_⟩
    rw [List.flatMap_cons, isShortest_cons (Nat.lt_trans hone.2 (by decide))]
    exact (hunit.append hlater).congr (and_iff_right trivial)
  | case3 before first lead hone htwo byte rest low hlow ih =>
    -- two bytes, the second of which starts nothing
    obtain ⟨later, rfl, hlater⟩ := ih h
    obtain ⟨hbyte, hsix⟩ := continuation_eq_some hlow
    refine ⟨UInt16.ofNat (lead % 0x20 * 0x40 + low) :: later, by simp, ?_⟩
    rw [List.flatMap_cons, isShortest_two (by omega)]
    exact (rewrites_two htwo hlow).append hlater
  | case6 before first lead hone htwo hthree byte byte' rest middle low hlow hmiddle ih =>
    -- three bytes, of which only the first two can start a long form
    obtain ⟨later, rfl, hlater⟩ := ih h
    obtain ⟨hbyte, hsix⟩ := continuation_eq_some hmiddle
    obtain ⟨hbyte', hsix'⟩ := continuation_eq_some hlow
    refine ⟨UInt16.ofNat (lead % 0x10 * 0x1000 + middle * 0x40 + low) :: later, by simp, ?_⟩
    rw [List.flatMap_cons, isShortest_two (by omega), isShortest_cons (by omega)]
    exact (rewrites_three hthree hmiddle hlow).append hlater
  | case4 => cases h
  | case5 => cases h
  | case7 => cases h
  | case8 => cases h
  | case9 => cases h

/-! ## Plain text -/

theorem isPlain_iff (byte : UInt8) : isPlain byte = true ↔ 0 < byte.toNat ∧ byte.toNat < 0x80 := by
  have hzero : (0 : UInt8).toNat = 0 := rfl
  have hend : (0x80 : UInt8).toNat = 0x80 := rfl
  unfold isPlain
  rw [Bool.and_eq_true, bne_iff_ne, decide_eq_true_eq, UInt8.lt_iff_toNat_lt, Ne,
    ← UInt8.toNat_inj, hzero, hend]
  omega

/-- A plain byte is a unit of its own. -/
theorem unitsAfter_of_plain (before : List UInt16) {bytes : Bytes}
    (h : ∀ byte ∈ bytes, isPlain byte = true) :
    unitsAfter before bytes =
      some (before.reverse ++ bytes.map fun byte => UInt16.ofNat byte.toNat) := by
  induction bytes generalizing before with
  | nil => simp [unitsAfter]
  | cons byte bytes ih =>
    have hone := (isPlain_iff byte).1 (h byte (by simp))
    rw [unitsAfter.eq_def]
    simp only [hone, and_self, if_true]
    rw [ih _ fun later hmem => h later (by simp [hmem])]
    simp

/-- The units of plain characters are their numbers. -/
theorem flatMap_encodeChar_of_plain {bytes : Bytes} (h : ∀ byte ∈ bytes, isPlain byte = true) :
    (bytes.map fun byte => Char.ofNat byte.toNat).flatMap Utf16.encodeChar =
      bytes.map fun byte => UInt16.ofNat byte.toNat := by
  induction bytes with
  | nil => rfl
  | cons byte bytes ih =>
    have hplain := (isPlain_iff byte).1 (h byte (by simp))
    have hcode : (Char.ofNat byte.toNat).toNat = byte.toNat :=
      Utf16.toNat_ofNat_of_valid (Or.inl (by omega))
    have hsmall : byte.toNat < 0x10000 := by omega
    rw [List.map_cons, List.flatMap_cons, ih fun later hmem => h later (by simp [hmem])]
    simp only [Utf16.encodeChar, hcode, hsmall, if_true, List.map_cons, List.cons_append,
      List.nil_append]

/-- The short cut for plain text gives what the general reader gives. -/
theorem decode_eq_decodeUnits (bytes : Bytes) : decode bytes = decodeUnits bytes := by
  unfold decode
  split
  · rename_i hplain
    rw [List.all_eq_true] at hplain
    have hunits := unitsAfter_of_plain [] hplain
    rw [List.reverse_nil, List.nil_append, ← flatMap_encodeChar_of_plain hplain] at hunits
    simp only [decodeUnits, units, hunits, Option.bind_eq_bind, Option.bind_some,
      Utf16.decode_flatMap_encodeChar, Option.pure_def]
  · rfl

/-! ## Bytes and text -/

/-- The bytes of a text are those of its units. -/
theorem encode_eq_flatMap_units (text : String) :
    encode text = (text.toList.flatMap Utf16.encodeChar).flatMap encodeUnit := by
  rw [List.flatMap_assoc]
  rfl

/-- What was written reads back. -/
theorem decode_encode (text : String) : decode (encode text) = some text := by
  rw [decode_eq_decodeUnits, encode_eq_flatMap_units]
  have hunits := unitsAfter_flatMap_encodeUnit [] (text.toList.flatMap Utf16.encodeChar)
  rw [List.reverse_nil, List.nil_append] at hunits
  simp only [decodeUnits, units, hunits, Option.bind_eq_bind, Option.bind_some,
    Utf16.decode_flatMap_encodeChar, Option.pure_def, String.ofList_toList]

/-- Writing a text that was read takes the bytes it was read from, or fewer if
one of their forms was longer than it had to be. -/
theorem rewrites_encode {bytes : Bytes} {text : String} (h : decode bytes = some text) :
    Rewrites (encode text) bytes (IsShortest bytes) := by
  rw [decode_eq_decodeUnits, decodeUnits] at h
  simp only [Option.bind_eq_bind, Option.bind_eq_some_iff, Option.pure_def,
    Option.some.injEq] at h
  obtain ⟨spelled, hspelled, chars, hchars, rfl⟩ := h
  obtain ⟨later, rfl, hlater⟩ := rewrites_of_unitsAfter hspelled
  have hback := Utf16.flatMap_encodeChar_of_decode hchars
  rw [encode_eq_flatMap_units, String.toList_ofList, hback]
  exact hlater

/-- Written bytes read back, none of them is zero, and none starts a form of
four bytes. -/
theorem encode_readable (text : String) :
    decode (encode text) = some text ∧ ∀ byte ∈ encode text, byte ≠ 0 ∧ byte < 0xF0 := by
  refine ⟨decode_encode text, fun byte hmem => ?_⟩
  rw [encode_eq_flatMap_units] at hmem
  obtain ⟨unit, -, hmem⟩ := List.mem_flatMap.1 hmem
  obtain ⟨hpositive, hlt⟩ := mem_encodeUnit hmem
  refine ⟨?_, UInt8.lt_iff_toNat_lt.2 hlt⟩
  rintro rfl
  exact absurd hpositive (by decide)

/-- Texts at the ends of all ranges. -/
theorem encode_readable_ranges :
    decode (encode "\x00\x7f\u0080\u07ff\u0800\uffff😀") =
        some "\x00\x7f\u0080\u07ff\u0800\uffff😀" ∧
      (0xED : UInt8) ∈ encode "😀" ∧ (0xED : UInt8) ≠ 0 ∧ (0xED : UInt8) < 0xF0 := by
  have hmem : (0xED : UInt8) ∈ encode "😀" := by decide
  exact ⟨(encode_readable _).1, hmem, (encode_readable _).2 _ hmem⟩

/-- Written bytes are the ones that can be read and have no form that is longer
than it needs to be.  So only those are the bytes of the text they spell. -/
theorem eq_encode_iff (bytes : Bytes) (text : String) :
    bytes = encode text ↔ decode bytes = some text ∧ IsShortest bytes := by
  constructor
  · rintro rfl
    have hread := decode_encode text
    exact ⟨hread, (rewrites_encode hread).eq_iff.1 rfl⟩
  · rintro ⟨hread, hshortest⟩
    exact ((rewrites_encode hread).eq_iff.2 hshortest).symm

example : IsShortest [0xC0, 0x80] ∧ ¬ IsShortest [0xC1, 0x81] := by decide

/-- Bytes that can be read need not be the bytes of the text they spell. -/
theorem not_eq_encode_of_decode :
    ¬ ∀ (bytes : Bytes) (text : String), decode bytes = some text → encode text = bytes := by
  intro h
  have hread : decode [0xC1, 0x81] = some "A" := by decide
  exact absurd (h _ _ hread) (by decide)

end ClassDelta.ModifiedUtf8
