import ClassDelta.Proofs.Bytes.BigEndian
import ClassDelta.Proofs.ClassFile.RoundTrip

/-!
# Lengths of texts

In a class file a text stands behind the number of its bytes, for which there
are two bytes.  A longer text is written with its length cut off, so that the
length is no longer that of the bytes behind it
(`Constant.statesTrueLength_iff_fits`).

That cannot happen to a text that was read.  Its bytes may have been others than
those it is written as, but not fewer, and a two-byte length has counted them.
`ClassFile.length_encode_and_statesTrueLength` says so of the bytes of a text,
of an entry that was read anywhere, and of the entries of a whole class file.
-/

namespace ClassDelta

namespace Constant

/-- The text is written as its tag, two bytes, and its encoded bytes, and the two
bytes spell how many those are. -/
def StatesTrueLength (text : String) : Prop :=
  ∃ length : Bytes, length.length = 2 ∧
    BigEndian.decode length = (ModifiedUtf8.encode text).length ∧
    (utf8 text).write = ConstantKind.utf8.tag :: (length ++ ModifiedUtf8.encode text)

/-- The length of a text is true as long as two bytes can spell it. -/
theorem statesTrueLength_iff_fits (text : String) : StatesTrueLength text ↔ (utf8 text).Fits := by
  constructor
  · intro h
    obtain ⟨length, htwo, hvalue, -⟩ := h
    have hlt := BigEndian.decode_lt length
    rw [htwo, hvalue] at hlt
    show (ModifiedUtf8.encode text).length ≤ 65535
    omega
  · intro h
    have hle : (ModifiedUtf8.encode text).length ≤ 65535 := h
    have hword : (UInt16.ofNat (ModifiedUtf8.encode text).length).toNat =
        (ModifiedUtf8.encode text).length := by
      rw [UInt16.toNat_ofNat']
      omega
    refine ⟨BigEndian.encode 2 (ModifiedUtf8.encode text).length, BigEndian.length_encode 2 _,
      ?_, ?_⟩
    · rw [BigEndian.decode_encode]
      omega
    · show _ :: (BigEndian.encode 2 (UInt16.ofNat _).toNat ++ _) = _
      rw [hword]
      rfl

end Constant

namespace ClassFile

/-- Bytes that spell a text are not fewer than those the text is written as.  So
the length that is written in front of a text is true for each text that was
read, in an entry by itself or in the pool of a class file. -/
theorem length_encode_and_statesTrueLength (supported : VersionRange) :
    (∀ (bytes : Bytes) (text : String), ModifiedUtf8.decode bytes = some text →
      (ModifiedUtf8.encode text).length ≤ bytes.length) ∧
    (∀ (index : PoolIndex) (before after : Cursor) (text : String),
      Constant.read index before = .ok (.utf8 text) after → Constant.StatesTrueLength text) ∧
    ∀ (bytes : Bytes) (file : ClassFile), parse supported bytes = .ok file →
      ∀ text : String, .utf8 text ∈ file.pool.constants → Constant.StatesTrueLength text := by
  refine ⟨?_, ?_, ?_⟩
  · intro bytes text hdecode
    exact (ModifiedUtf8.rewrites_encode hdecode).length_le
  · intro index before after text hread
    rw [Constant.statesTrueLength_iff_fits]
    exact Constant.returns_read index before _ after hread
  · intro bytes file hparse text hmem
    obtain ⟨after, hread⟩ := Reader.run_eq_ok_iff.1 hparse
    have hfits := returns_read supported _ file after hread
    rw [Constant.statesTrueLength_iff_fits]
    exact hfits.pool.entriesFit _ hmem

/-- A letter in two bytes, by itself and in an entry, and a surrogate pair in a
class file. -/
theorem length_encode_and_statesTrueLength_longForm :
    (ModifiedUtf8.decode [0xC1, 0x81] = some "A" ∧
      (ModifiedUtf8.encode "A").length ≤ [0xC1, 0x81].length) ∧
    (Constant.read 1 (.start [1, 0, 2, 0xC1, 0x81]) = .ok (.utf8 "A") ⟨5, []⟩ ∧
      Constant.StatesTrueLength "A") ∧
    parse .everyRelease wideEntrySample.write = .ok wideEntrySample ∧
      .utf8 "😀" ∈ wideEntrySample.pool.constants ∧ Constant.StatesTrueLength "😀" := by
  obtain ⟨hletter, hentry, hfile⟩ := length_encode_and_statesTrueLength .everyRelease
  have hdecode : ModifiedUtf8.decode [0xC1, 0x81] = some "A" := by decide
  have hread : Constant.read 1 (.start [1, 0, 2, 0xC1, 0x81]) = .ok (.utf8 "A") ⟨5, []⟩ := by rfl
  have hparse := parse_write_of_fits wideEntrySample_fits
  have hmem : .utf8 "😀" ∈ wideEntrySample.pool.constants := by decide
  exact ⟨⟨hdecode, hletter _ _ hdecode⟩, ⟨hread, hentry _ _ _ _ hread⟩, hparse, hmem,
    hfile _ _ hparse _ hmem⟩

end ClassFile

end ClassDelta
