import ClassDelta.Proofs.Text.ModifiedUtf8

/-!
# Plain text

Bytes that are ASCII and not zero are plain.  They are the UTF-8 form of the
characters they stand for (`toByteArray_plainText`), so any reader of UTF-8 will
do for them (`decode_eq_ite`), and reading them unit by unit gives the same text.

`decode_eq_of_shortCut` puts this together.  Which of the two ways bytes are read
depends on all of them, but what they spell does not depend on the way.
-/

namespace ClassDelta.ModifiedUtf8

variable {bytes : Bytes}

/-- The characters that the bytes stand for one by one. -/
def plainText (bytes : Bytes) : String := String.ofList (bytes.map fun byte => Char.ofNat byte.toNat)

/-! ## Plain bytes as UTF-8 -/

/-- A plain character is one byte of UTF-8. -/
theorem utf8EncodeChar_of_plain {byte : UInt8} (h : isPlain byte = true) :
    String.utf8EncodeChar (Char.ofNat byte.toNat) = [byte] := by
  have hrange := (isPlain_iff byte).1 h
  have hcode : (Char.ofNat byte.toNat).toNat = byte.toNat :=
    Utf16.toNat_ofNat_of_valid (Or.inl (by omega))
  have hsize : (Char.ofNat byte.toNat).utf8Size = 1 := by
    rw [Char.utf8Size_eq_one_iff, UInt32.le_iff_toNat_le]
    show (Char.ofNat byte.toNat).toNat ≤ 127
    omega
  have hbyte : (Char.ofNat byte.toNat).val.toUInt8 = byte := by
    rw [← UInt8.toNat_inj, UInt32.toNat_toUInt8]
    show (Char.ofNat byte.toNat).toNat % 2 ^ 8 = byte.toNat
    omega
  rw [String.utf8EncodeChar_eq_singleton hsize, hbyte]

/-- Plain bytes are the UTF-8 form of the characters they stand for. -/
theorem toByteArray_plainText (h : ∀ byte ∈ bytes, isPlain byte = true) :
    (plainText bytes).toByteArray = bytes.toByteArray := by
  have hchars : (bytes.map fun byte => Char.ofNat byte.toNat).flatMap String.utf8EncodeChar =
      bytes := by
    induction bytes with
    | nil => rfl
    | cons byte later ih =>
      have hlater := ih fun byte hmem => h byte (List.mem_cons_of_mem _ hmem)
      rw [List.map_cons, List.flatMap_cons, utf8EncodeChar_of_plain (h byte List.mem_cons_self),
        hlater]
      rfl
  rw [plainText, String.toByteArray_ofList, List.utf8Encode, hchars]

/-- A text is what its UTF-8 form spells. -/
theorem fromUTF8?_toByteArray (text : String) : String.fromUTF8? text.toByteArray = some text := by
  unfold String.fromUTF8?
  rw [dif_pos text.isValidUTF8]
  rfl

theorem fromUTF8?_of_plain (h : ∀ byte ∈ bytes, isPlain byte = true) :
    String.fromUTF8? bytes.toByteArray = some (plainText bytes) := by
  rw [← toByteArray_plainText h, fromUTF8?_toByteArray]

/-! ## The two ways of reading -/

/-- The short cut is a reader of UTF-8. -/
theorem decode_eq_ite (bytes : Bytes) :
    decode bytes =
      if bytes.all isPlain then String.fromUTF8? bytes.toByteArray else decodeUnits bytes := by
  unfold decode
  split
  · rename_i hplain
    rw [List.all_eq_true] at hplain
    exact (fromUTF8?_of_plain hplain).symm
  · rfl

/-- The short cut is taken by the bytes from `0x01` to `0x7F` alone. -/
theorem all_isPlain_iff (bytes : Bytes) :
    bytes.all isPlain = true ↔ ∀ byte ∈ bytes, 0x01 ≤ byte ∧ byte ≤ 0x7F := by
  rw [List.all_eq_true]
  refine forall_congr' fun byte => imp_congr_right fun _ => ?_
  have hfirst : (0x01 : UInt8).toNat = 1 := rfl
  have hlast : (0x7F : UInt8).toNat = 0x7F := rfl
  rw [isPlain_iff, UInt8.le_iff_toNat_le, UInt8.le_iff_toNat_le, hfirst, hlast]
  omega

/-- Bytes spell what they spell unit by unit.  Where the short cut is taken, UTF-8
and units give the same text; it is never taken over a zero byte or one from
`0x80` on. -/
theorem decode_eq_of_shortCut (bytes : Bytes) :
    decode bytes = decodeUnits bytes ∧
    (decode bytes =
      if bytes.all isPlain then String.fromUTF8? bytes.toByteArray else decodeUnits bytes) ∧
    ((∀ byte ∈ bytes, 0x01 ≤ byte ∧ byte ≤ 0x7F) → bytes.all isPlain = true ∧
      String.fromUTF8? bytes.toByteArray = some (plainText bytes) ∧
      decodeUnits bytes = some (plainText bytes)) ∧
    ∀ byte ∈ bytes, byte = 0 ∨ 0x80 ≤ byte → bytes.all isPlain = false := by
  refine ⟨decode_eq_decodeUnits bytes, decode_eq_ite bytes, ?_, ?_⟩
  · intro hrange
    have hall := (all_isPlain_iff bytes).2 hrange
    have hutf8 := fromUTF8?_of_plain (List.all_eq_true.1 hall)
    refine ⟨hall, hutf8, ?_⟩
    rw [← decode_eq_decodeUnits, decode_eq_ite, if_pos hall, hutf8]
  · intro byte hmem houtside
    rw [Bool.eq_false_iff, Ne, all_isPlain_iff]
    intro hrange
    obtain ⟨hfirst, hlast⟩ := hrange byte hmem
    rcases houtside with rfl | hlarge
    · exact absurd hfirst (by decide)
    · exact absurd (UInt8.le_trans hlarge hlast) (by decide)

/-- A name takes the short cut, and so do no bytes at all; one letter outside of
ASCII is enough to make it impossible. -/
theorem decode_eq_of_shortCut_name :
    ((∀ byte ∈ ([0x4D, 0x61, 0x70] : Bytes), 0x01 ≤ byte ∧ byte ≤ 0x7F) ∧
        plainText [0x4D, 0x61, 0x70] = "Map" ∧ decodeUnits [0x4D, 0x61, 0x70] = some "Map") ∧
      ((∀ byte ∈ ([] : Bytes), 0x01 ≤ byte ∧ byte ≤ 0x7F) ∧ decodeUnits [] = some "") ∧
      (0xC3 : UInt8) ∈ ([0x4D, 0xC3, 0xA4, 0x70] : Bytes) ∧ (0x80 : UInt8) ≤ 0xC3 ∧
      ([0x4D, 0xC3, 0xA4, 0x70] : Bytes).all isPlain = false := by
  have hname : ∀ byte ∈ ([0x4D, 0x61, 0x70] : Bytes), 0x01 ≤ byte ∧ byte ≤ 0x7F :=
    (all_isPlain_iff _).1 (by decide)
  have hnone : ∀ byte ∈ ([] : Bytes), 0x01 ≤ byte ∧ byte ≤ 0x7F := List.forall_mem_nil _
  have hletter : (0xC3 : UInt8) ∈ ([0x4D, 0xC3, 0xA4, 0x70] : Bytes) := by decide
  obtain ⟨-, -, hunits⟩ := (decode_eq_of_shortCut [0x4D, 0x61, 0x70]).2.2.1 hname
  obtain ⟨-, -, hempty⟩ := (decode_eq_of_shortCut []).2.2.1 hnone
  refine ⟨⟨hname, by decide, hunits⟩, ⟨hnone, hempty⟩, hletter, by decide, ?_⟩
  exact (decode_eq_of_shortCut _).2.2.2 _ hletter (Or.inr (by decide))

end ClassDelta.ModifiedUtf8
