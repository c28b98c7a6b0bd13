import ClassDelta.Bytes.BigEndian
import Mathlib.Data.String.Basic
import Mathlib.Tactic.SplitIfs

/-!
# The order of texts and of their bytes

A text whose first different character is smaller has the first different byte
smaller, too: the bytes of a larger character begin with a larger lead byte, or
they differ in a later group of six bits.  So texts can be put in order by their
characters as well as by their bytes in UTF-8 (`utf8Bytes_lt`).
-/

namespace ClassDelta

/-- The bytes of a text in UTF-8. -/
def utf8Bytes (text : String) : Bytes := text.toList.flatMap String.utf8EncodeChar

/-- These are the bytes that a text is kept as. -/
theorem toByteArray_utf8Bytes (text : String) :
    (utf8Bytes text).toByteArray = text.toByteArray := by
  rw [← String.utf8Encode_toList]
  rfl

theorem ofNat_cons_lt_iff {first later : Nat} (hfirst : first < 256) (hlater : later < 256)
    (rest rest' : Bytes) :
    UInt8.ofNat first :: rest < UInt8.ofNat later :: rest' ↔
      first < later ∨ first = later ∧ rest < rest' := by
  rw [List.cons_lt_cons_iff, UInt8.lt_iff_toNat_lt, ← UInt8.toNat_inj,
    UInt8.toNat_ofNat_of_lt' hfirst, UInt8.toNat_ofNat_of_lt' hlater]

/-- Six bits count when those in front of them are the same. -/
theorem div_lt_or_eq {first later size : Nat} (h : first / size < later / size) :
    first / (size * 64) < later / (size * 64) ∨
      first / (size * 64) = later / (size * 64) ∧ first / size % 64 < later / size % 64 := by
  rw [← Nat.div_div_eq_div_mul, ← Nat.div_div_eq_div_mul]
  omega

/-- A smaller character is in front, whatever follows. -/
theorem utf8EncodeChar_append_lt {first later : Char} (h : first < later) (rest rest' : Bytes) :
    String.utf8EncodeChar first ++ rest < String.utf8EncodeChar later ++ rest' := by
  have hlt : first.val.toNat < later.val.toNat := UInt32.lt_iff_toNat_lt.1 h
  have hbound : later.val.toNat < 0x110000 := by
    rcases later.valid with hlow | ⟨-, hhigh⟩
    · omega
    · exact hhigh
  unfold String.utf8EncodeChar
  dsimp only
  generalize first.val.toNat = a at *
  generalize later.val.toNat = b at *
  -- Numbers are compared in groups of six bits, and a group counts if all in front of it
  -- are the same.
  have hlast : a / 64 < b / 64 ∨ a / 64 = b / 64 ∧ a % 64 < b % 64 := by omega
  have hthird : a / 64 < b / 64 →
      a / 4096 < b / 4096 ∨ a / 4096 = b / 4096 ∧ a / 64 % 64 < b / 64 % 64 :=
    @div_lt_or_eq a b 64
  have hsecond : a / 4096 < b / 4096 →
      a / 262144 < b / 262144 ∨ a / 262144 = b / 262144 ∧ a / 4096 % 64 < b / 4096 % 64 :=
    @div_lt_or_eq a b 4096
  -- One case for each pair of lengths.  Lead bytes of longer forms are larger.
  split_ifs <;>
    simp (disch := omega) only [List.cons_append, List.nil_append, ofNat_cons_lt_iff,
      Nat.mod_eq_of_lt] <;>
    omega

theorem flatMap_utf8EncodeChar_lt {front back : List Char} (h : front < back) :
    front.flatMap String.utf8EncodeChar < back.flatMap String.utf8EncodeChar := by
  induction back generalizing front with
  | nil => exact absurd h (List.not_lt_nil front)
  | cons char back ih =>
    rw [List.flatMap_cons]
    cases front with
    | nil =>
      obtain ⟨byte, rest, hbytes⟩ := List.exists_cons_of_length_pos
        (String.length_utf8EncodeChar char ▸ Char.utf8Size_pos char)
      rw [hbytes, List.flatMap_nil]
      exact List.nil_lt_cons byte _
    | cons char' front =>
      rw [List.flatMap_cons]
      rcases List.cons_lt_cons_iff.1 h with hfirst | ⟨rfl, hlater⟩
      · exact utf8EncodeChar_append_lt hfirst _ _
      · exact List.append_left_lt (ih hlater)

/-- Texts are in the order of their bytes. -/
theorem utf8Bytes_lt {first later : String} (h : first < later) :
    utf8Bytes first < utf8Bytes later :=
  flatMap_utf8EncodeChar_lt (String.lt_iff_toList_lt.1 h)

end ClassDelta
