import ClassDelta.ClassFile
import ClassDelta.Proofs.Pool.RoundTrip

/-!
# Reading and writing class files

`ClassFile.Fits` collects what a class file has to keep to so that nothing is
lost when it is written: the limits of its constant pool, lists that a 16-bit
count can count, attributes that a 32-bit length can measure, and a version
that the reader accepts.

The main statement is `ClassFile.parse_write`.  Class files that fit read back
as they were, and every class file that was read fits; so what was read can be
written and read again.
-/

namespace ClassDelta

open Codec (FitsCounted)

/-! ## The limits of the format -/

namespace RawAttribute

/-- A 32-bit length can measure the attribute. -/
def Fits (value : RawAttribute) : Prop := value.info.length < 2 ^ 32

instance : DecidablePred Fits :=
  fun value => inferInstanceAs (Decidable (value.info.length < 2 ^ 32))

end RawAttribute

namespace RawMember

/-- The attributes can be counted, and each of them fits. -/
def Fits {scope : FlagScope} (member : RawMember scope) : Prop :=
  FitsCounted RawAttribute.Fits member.attributes

instance {scope : FlagScope} : DecidablePred (@Fits scope) :=
  fun member => inferInstanceAs (Decidable (FitsCounted RawAttribute.Fits member.attributes))

end RawMember

/-- Every list of the class can be counted, and its elements fit. -/
structure ClassBody.Fits (body : ClassBody) : Prop where
  interfaces : body.interfaces.length ≤ 65535
  fields : FitsCounted RawMember.Fits body.fields
  methods : FitsCounted RawMember.Fits body.methods
  attributes : FitsCounted RawAttribute.Fits body.attributes

/-- The class files that can be written without loss and read again. -/
structure ClassFile.Fits (supported : VersionRange) (file : ClassFile) : Prop where
  version : supported.contains file.version = true
  pool : file.pool.Fits
  body : file.toClassBody.Fits

/-! ## The parts of a class file -/

namespace RawAttribute

theorem roundTrips_codec : codec.RoundTrips Fits where
  minSize_le value _ := by
    have hname := Codec.roundTrips_uint16.minSize_le value.name trivial
    have hlength := Codec.roundTrips_uint32.minSize_le (UInt32.ofNat value.info.length) trivial
    simp only [codec, List.length_append]
    omega
  reads value hvalue := by
    have hlength : (UInt32.ofNat value.info.length).toNat = value.info.length := by
      rw [UInt32.toNat_ofNat']
      exact Nat.mod_eq_of_lt hvalue
    simp only [codec, List.append_assoc]
    refine (Codec.roundTrips_uint16.reads value.name trivial).bind ?_
    refine (Codec.roundTrips_uint32.reads _ trivial).bind ?_
    rw [hlength]
    exact (Reader.reads_take value.info).bind_nil (Reader.reads_pure value)
  returns := by
    refine (Reader.returns_any _).bind fun name _ => ?_
    refine (Reader.returns_any _).bind fun length _ => ?_
    have hlt := length.toNat_lt
    have hlarge := Reader.le_largestRequest (show length.toNat < 2 ^ 32 by omega)
    refine (Reader.returns_take hlarge).bind fun info hinfo => ?_
    refine Reader.returns_pure ?_
    show info.length < 2 ^ 32
    omega

end RawAttribute

theorem RawMember.roundTrips_codec (scope : FlagScope) : (codec scope).RoundTrips Fits := by
  have hparts := (Codec.roundTrips_flags scope).pair (Codec.roundTrips_uint16.pair
    (Codec.roundTrips_uint16.pair RawAttribute.roundTrips_codec.counted))
  refine hparts.via ?_ ?_ ?_
  · intro member hmember
    exact ⟨trivial, trivial, trivial, hmember⟩
  · rintro ⟨flags, name, descriptor, attributes⟩ ⟨_, _, _, hattributes⟩
    exact hattributes
  · intro member _
    rfl

theorem ClassBody.roundTrips_codec : codec.RoundTrips Fits := by
  have hinterfaces : Codec.uint16.counted.RoundTrips (FitsCounted fun _ => True) :=
    Codec.roundTrips_uint16.counted
  have hparts := (Codec.roundTrips_flags .ofClass).pair (Codec.roundTrips_uint16.pair
    (Codec.roundTrips_uint16.pair (hinterfaces.pair
      ((RawMember.roundTrips_codec .ofField).counted.pair
        ((RawMember.roundTrips_codec .ofMethod).counted.pair
          RawAttribute.roundTrips_codec.counted)))))
  refine hparts.via ?_ ?_ ?_
  · intro body hbody
    exact ⟨trivial, trivial, trivial, ⟨hbody.interfaces, fun _ _ => trivial⟩, hbody.fields,
      hbody.methods, hbody.attributes⟩
  · rintro ⟨flags, thisClass, superClass, interfaces, fields, methods, attributes⟩ hraw
    obtain ⟨_, _, _, hinterfaces, hfields, hmethods, hattributes⟩ := hraw
    exact ⟨hinterfaces.1, hfields, hmethods, hattributes⟩
  · intro body _
    rfl

/-! ## Whole class files -/

namespace ClassFile

theorem reads_version {supported : VersionRange} {version : Version}
    (h : supported.contains version = true) :
    (readVersion supported).Reads (Codec.uint32.write magic ++ Version.codec.write version)
      version := by
  refine (Codec.roundTrips_uint32.reads magic trivial).bind ?_
  rw [if_pos rfl]
  refine (Codec.roundTrips_version.reads version trivial).bind_nil ?_
  rw [if_pos h]
  exact Reader.reads_pure version

theorem reads_preamble {supported : VersionRange} {file : ClassFile} (h : file.Fits supported) :
    (readPreamble supported).Reads
      (Codec.uint32.write magic ++ Version.codec.write file.version ++ file.pool.write)
      (file.version, file.pool) := by
  refine (reads_version h.version).bind ?_
  exact (Pool.reads_write h.pool).bind_nil (Reader.reads_pure (file.version, file.pool))

/-- A class file that fits reads back. -/
theorem parse_write_of_fits {supported : VersionRange} {file : ClassFile}
    (h : file.Fits supported) : parse supported file.write = .ok file := by
  obtain ⟨position, hpreamble⟩ : ∃ position, readPreamble supported (Cursor.start file.write) =
      .ok (file.version, file.pool) ⟨position, ClassBody.codec.write file.toClassBody⟩ :=
    ⟨_, reads_preamble h 0 (ClassBody.codec.write file.toClassBody)⟩
  have hbody := ClassBody.roundTrips_codec.reads file.toClassBody h.body position []
  rw [List.append_nil] at hbody
  refine Reader.run_eq_ok_iff.2
    ⟨⟨position + (ClassBody.codec.write file.toClassBody).length, []⟩, ?_⟩
  unfold read
  rw [Stateful.bind_of_ok hpreamble]
  show (ClassBody.codec.read >>= _) _ = _
  rw [Stateful.bind_of_ok hbody]
  rfl

theorem returns_version (supported : VersionRange) :
    (readVersion supported).Returns fun version => supported.contains version = true := by
  refine (Reader.returns_any _).bind fun found _ => ?_
  split
  · refine (Reader.returns_any _).bind fun version _ => ?_
    split
    · rename_i hcontains
      exact Reader.returns_pure hcontains
    · exact Reader.returns_throw _
  · exact Reader.returns_throw _

/-- Every class file that is read fits. -/
theorem returns_read (supported : VersionRange) :
    (read supported).Returns (Fits supported) := by
  have hpreamble : (readPreamble supported).Returns fun parts =>
      supported.contains parts.1 = true ∧ parts.2.Fits :=
    (returns_version supported).bind fun version hversion =>
      Pool.returns_read.bind fun pool hpool => Reader.returns_pure ⟨hversion, hpool⟩
  refine hpreamble.bind fun parts hparts => ?_
  refine ClassBody.roundTrips_codec.returns.bind fun body hbody => ?_
  refine (Reader.returns_any _).bind fun cursor _ => ?_
  split
  · exact Reader.returns_pure ⟨hparts.1, hparts.2, hbody⟩
  · exact Reader.returns_throw _

/-- Class files that fit read back from their written form as they were.  What
was read fits, whatever the bytes were, and so reads back from its own written
form. -/
theorem parse_write (supported : VersionRange) :
    (∀ file : ClassFile, file.Fits supported → parse supported file.write = .ok file) ∧
      ∀ (bytes : Bytes) (file : ClassFile), parse supported bytes = .ok file →
        file.Fits supported ∧ parse supported file.write = .ok file := by
  refine ⟨fun file h => parse_write_of_fits h, fun bytes file hparse => ?_⟩
  obtain ⟨after, hread⟩ := Reader.run_eq_ok_iff.1 hparse
  have hfits := returns_read supported _ file after hread
  exact ⟨hfits, parse_write_of_fits hfits⟩

/-- A class whose pool has a wide entry in front, a text with `U+0000`, one with
a surrogate pair, and a float that is no number. -/
def wideEntrySample : ClassFile where
  version := ⟨52, 0⟩
  pool := .ofConstants
    [.long (-1), .utf8 "a\x00é", .named .className 3, .utf8 "😀", .float 0x7FC00001]
  flags := .ofBits 0x0021
  thisClass := 4
  superClass := 0
  interfaces := [4, 4]
  fields := [⟨.ofBits 0x0019, 3, 5, [⟨5, [0, 1]⟩]⟩]
  methods := []
  attributes := [⟨3, []⟩]

theorem wideEntrySample_fits : wideEntrySample.Fits .everyRelease := by
  have hindexed : wideEntrySample.pool.IsIndexed := Pool.isIndexed_ofConstants (by decide)
  have hlinked := (Pool.danglingReference?_eq_none_iff hindexed).1 (by decide)
  have hentries : ∀ constant ∈ wideEntrySample.pool.constants, constant.Fits := by decide
  exact ⟨by decide, ⟨hindexed, hlinked, hentries⟩, by decide, by decide, by decide, by decide⟩

theorem parse_write_wideEntrySample :
    wideEntrySample.Fits .everyRelease ∧
      parse .everyRelease wideEntrySample.write = .ok wideEntrySample := by
  have hparse := (parse_write .everyRelease).1 wideEntrySample wideEntrySample_fits
  exact (parse_write .everyRelease).2 wideEntrySample.write wideEntrySample hparse

end ClassFile

end ClassDelta
