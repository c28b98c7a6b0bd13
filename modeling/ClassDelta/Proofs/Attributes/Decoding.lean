import ClassDelta.Proofs.Attributes
import ClassDelta.Proofs.Bytes.Failing

/-!
# The bytes that attributes decode from

A format decodes all bytes of one size and fails on all others, always in the same
way (`AttributeFormat.IsExact`).  The size is fixed, or it follows from the count
in the first two bytes.

Writing the value again gives the bytes back.  Only the flags of inner class
entries lose something; `InnerClass.dropUndefined` says what is left of the bytes
of such entries.
-/

namespace ClassDelta

open Codec

/-! ## Entries of inner classes -/

/-- An inner class entry as it stands in a class file. -/
structure VerbatimInnerClass where
  inner : PoolIndex
  outer : PoolIndex
  name : PoolIndex
  /-- All bits of the flags, defined or not. -/
  word : UInt16

namespace VerbatimInnerClass

def codec : Codec VerbatimInnerClass :=
  (uint16.pair <| uint16.pair <| uint16.pair uint16).via
    (fun source => (source.inner, source.outer, source.name, source.word))
    (fun (inner, outer, name, word) => ⟨inner, outer, name, word⟩)

/-- The entry that is read. -/
def entry (source : VerbatimInnerClass) : InnerClass :=
  ⟨source.inner, source.outer, source.name, .ofBits source.word⟩

theorem normalises_codec :
    InnerClass.codec.Normalises codec entry
      fun source => source.word &&& FlagScope.ofInnerClass.mask = source.word := by
  have hparts := writesBack_uint16.normalises.pair (writesBack_uint16.normalises.pair
    (writesBack_uint16.normalises.pair (normalises_flags .ofInnerClass)))
  exact hparts.via (fun _ => rfl) (fun _ => rfl) (fun _ => rfl) (by simp)

end VerbatimInnerClass

namespace InnerClass

/-- The bytes of inner class entries without the undefined bits of their flags,
which are the last two of the eight bytes of an entry. -/
def dropUndefined : Bytes → Bytes
  | inner :: inner' :: outer :: outer' :: name :: name' :: high :: low :: later =>
    inner :: inner' :: outer :: outer' :: name :: name' ::
      (high &&& (FlagScope.ofInnerClass.mask >>> 8).toUInt8) ::
      (low &&& FlagScope.ofInnerClass.mask.toUInt8) :: dropUndefined later
  | rest => rest

theorem write_uint16 (word : UInt16) : uint16.write word = [(word >>> 8).toUInt8, word.toUInt8] := by
  have hhigh : UInt8.ofNat (word.toNat >>> 8) = (word >>> 8).toUInt8 := by
    apply UInt8.toNat_inj.1
    simp
  have hlow : UInt8.ofNat (word.toNat >>> 0) = word.toUInt8 := by
    apply UInt8.toNat_inj.1
    simp
  show [UInt8.ofNat (word.toNat >>> 8), UInt8.ofNat (word.toNat >>> 0)] = _
  rw [hhigh, hlow]

/-- An entry is written without the undefined bits that its bytes had. -/
theorem dropUndefined_write_append (source : VerbatimInnerClass) (later : Bytes) :
    dropUndefined (VerbatimInnerClass.codec.write source ++ later) =
      codec.write source.entry ++ dropUndefined later := by
  have hverbatim : VerbatimInnerClass.codec.write source = uint16.write source.inner ++
      (uint16.write source.outer ++ (uint16.write source.name ++ uint16.write source.word)) := rfl
  have hentry : codec.write source.entry = uint16.write source.inner ++
      (uint16.write source.outer ++ (uint16.write source.name ++
        uint16.write (source.word &&& FlagScope.ofInnerClass.mask))) := rfl
  rw [hverbatim, hentry]
  simp only [write_uint16, List.cons_append, List.nil_append, dropUndefined,
    UInt16.shiftRight_and, UInt16.toUInt8_and]

theorem dropUndefined_flatMap (sources : List VerbatimInnerClass) :
    dropUndefined (sources.flatMap VerbatimInnerClass.codec.write) =
      (sources.map VerbatimInnerClass.entry).flatMap codec.write := by
  induction sources with
  | nil => rfl
  | cons source later ih =>
    rw [List.flatMap_cons, dropUndefined_write_append, ih, List.map_cons, List.flatMap_cons]

end InnerClass

/-! ## Decoding -/

namespace AttributeFormat

variable {α σ : Type} {format : AttributeFormat α}

/-- A value is decoded where all bytes are taken. -/
theorem decode_eq_ok {info : Bytes} {value : α} (h : format.decode info = .ok value) :
    ∃ after, format.codec.read (.start info) = .ok value after ∧ after.rest = [] := by
  unfold decode at h
  split at h
  · rename_i found after hread
    split at h
    · rename_i hend
      cases h
      exact ⟨after, hread, List.isEmpty_iff.1 hend⟩
    · cases h
  · cases h
  · cases h

/-- The bytes that were decoded are those of a verbatim value. -/
theorem exists_verbatim {verbatim : Codec σ} {meaning : σ → α} {canonical : σ → Prop}
    (h : format.codec.Normalises verbatim meaning canonical) {info : Bytes} {value : α}
    (hdecode : format.decode info = .ok value) :
    ∃ raw, verbatim.write raw = info ∧ meaning raw = value := by
  obtain ⟨after, hread, hend⟩ := decode_eq_ok hdecode
  obtain ⟨bytes, hbytes, raw, hwrite, hmeaning⟩ := h.takes _ value after hread
  have hall : info = bytes := by
    rw [hend, List.append_nil] at hbytes
    exact hbytes
  exact ⟨raw, hwrite.trans hall.symm, hmeaning⟩

/-- Bytes of the right size are decoded. -/
theorem exists_decode_eq_ok {size : Bytes → Nat} (h : format.codec.read.IsSized size)
    {info : Bytes} (hsize : info.length = size info) : ∃ value, format.decode info = .ok value := by
  obtain ⟨value, after, hread, hlength⟩ := h.ok (.start info) (Nat.le_of_eq hsize.symm)
  have hend : after.atEnd = true := by
    have hlength : info.length = size info + after.rest.length := hlength
    exact List.isEmpty_iff.2 (List.eq_nil_of_length_eq_zero (by omega))
  exact ⟨value, by simp only [decode, hread, hend, if_true]⟩

/-- Bytes of another size are not, be they too few or too many. -/
theorem decode_eq_badLength {size : Bytes → Nat} (h : format.codec.read.IsSized size)
    {info : Bytes} (hsize : info.length ≠ size info) :
    format.decode info =
      .error (.malformedClass (.badAttributeLength format.name info.length)) := by
  by_cases hshort : info.length < size info
  · obtain ⟨_, after, hread, offset, needed, available, rfl⟩ := h.fails info hshort 0
    have hread : format.codec.read (.start info) =
        .error (.truncated offset needed available) after := hread
    simp only [decode, hread]
  · obtain ⟨value, after, hread, hlength⟩ := h.ok (.start info) (Nat.le_of_not_lt hshort)
    have hend : ¬ after.atEnd = true := by
      intro hend
      have hlength : info.length = size info + after.rest.length := hlength
      rw [List.isEmpty_iff.1 hend] at hlength
      exact hsize hlength
    simp only [decode, hread, if_neg hend]

/-! ## Formats that decode what they write -/

/-- A format decodes the bytes of one size.  All others have the wrong length, which
is the only way to fail.  What is decoded is written as the bytes that `settle` makes
of those it was decoded from, and every value that fits is decoded from the bytes
that it is written as. -/
structure IsExact (format : AttributeFormat α) (name : String) (size : Bytes → Nat)
    (fits : α → Prop) (settle : Bytes → Bytes) : Prop where
  decodes : ∀ info, info.length = size info → ∃ value, format.decode info = .ok value
  rejects : ∀ info, info.length ≠ size info →
    format.decode info = .error (.malformedClass (.badAttributeLength name info.length))
  writes : ∀ info value, format.decode info = .ok value →
    format.codec.write value = settle info
  reads : ∀ value, fits value → format.decode (format.codec.write value) = .ok value

/-- A format that loses nothing. -/
theorem isExact_of_writesBack {size : Bytes → Nat} {fits : α → Prop}
    (hsize : format.codec.read.IsSized size) (hwrites : format.codec.WritesBack)
    (hreads : ∀ value, fits value → format.decode (format.codec.write value) = .ok value) :
    format.IsExact format.name size fits id where
  decodes _ hlength := exists_decode_eq_ok hsize hlength
  rejects _ hlength := decode_eq_badLength hsize hlength
  writes info value hdecode := by
    obtain ⟨raw, hwrite, hmeaning⟩ := exists_verbatim hwrites.normalises hdecode
    rw [← hmeaning]
    exact hwrite
  reads := hreads

theorem isExact_index (name : String) :
    (⟨name, uint16⟩ : AttributeFormat PoolIndex).IsExact name (fun _ => 2) (fun _ => True) id :=
  isExact_of_writesBack isTotal_uint16.isSized writesBack_uint16
    fun _ _ => decode_write _ roundTrips_uint16 trivial

theorem isExact_marker (name : String) :
    (⟨name, Codec.unit⟩ : AttributeFormat Unit).IsExact name (fun _ => 0) (fun _ => True) id :=
  isExact_of_writesBack (Reader.isTotal_pure ()).isSized (Reader.takes_pure rfl)
    fun _ _ => decode_write _ roundTrips_unit trivial

theorem isExact_enclosingMethod :
    enclosingMethod.IsExact "EnclosingMethod" (fun _ => 4) (fun _ => True) id := by
  have htotal : EnclosingMethod.codec.read.IsTotal 4 :=
    (isTotal_pair isTotal_uint16 isTotal_uint16).map _
  have hwrites : EnclosingMethod.codec.WritesBack :=
    (writesBack_uint16.pair writesBack_uint16).via fun _ => rfl
  exact isExact_of_writesBack htotal.isSized hwrites
    fun _ _ => decode_write _ EnclosingMethod.roundTrips_codec trivial

theorem isExact_exceptions :
    exceptions.IsExact "Exceptions" (countedSize 2) (fun classes => classes.length ≤ 65535) id :=
  isExact_of_writesBack (isSized_counted isTotal_uint16 (by decide)) writesBack_uint16.counted
    fun _ hcount => decode_write _ roundTrips_uint16.counted ⟨hcount, fun _ _ => trivial⟩

/-- The count in front of the entries stays as it is. -/
theorem isExact_innerClasses :
    innerClasses.IsExact "InnerClasses" (countedSize 8) (fun entries => entries.length ≤ 65535)
      fun info => info.take 2 ++ InnerClass.dropUndefined (info.drop 2) := by
  have htotal : InnerClass.codec.read.IsTotal 8 :=
    (isTotal_pair isTotal_uint16 (isTotal_pair isTotal_uint16 (isTotal_pair isTotal_uint16
      (isTotal_flags .ofInnerClass)))).map _
  have hsize : innerClasses.codec.read.IsSized (countedSize 8) :=
    isSized_counted htotal (by decide)
  refine ⟨fun _ => exists_decode_eq_ok hsize, fun _ => decode_eq_badLength hsize, ?_,
    fun _ hcount => decode_write _ InnerClass.roundTrips_codec.counted ⟨hcount, fun _ _ => trivial⟩⟩
  intro info entries hdecode
  obtain ⟨sources, rfl, rfl⟩ :=
    exists_verbatim VerbatimInnerClass.normalises_codec.counted hdecode
  have hcount : (uint16.write (UInt16.ofNat sources.length)).length = 2 := hasFixedSize_uint16 _
  have hsources : VerbatimInnerClass.codec.counted.write sources =
      uint16.write (UInt16.ofNat sources.length) ++
        sources.flatMap VerbatimInnerClass.codec.write := rfl
  have hentries : innerClasses.codec.write (sources.map VerbatimInnerClass.entry) =
      uint16.write (UInt16.ofNat (sources.map VerbatimInnerClass.entry).length) ++
        (sources.map VerbatimInnerClass.entry).flatMap InnerClass.codec.write := rfl
  rw [hsources, hentries, List.take_left' hcount, List.drop_left' hcount, List.length_map,
    InnerClass.dropUndefined_flatMap]

end AttributeFormat

end ClassDelta
