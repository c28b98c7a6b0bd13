import ClassDelta.Proofs.Bytes.Stability
import ClassDelta.Proofs.ClassFile.RoundTrip

/-!
# Class files end by themselves

Nothing in front of a class file says how long it is: it ends where its last
attribute does.  So bytes behind a class file are bytes too many, and a class
file without its last byte is too short (`ClassFile.parse_append`).

All readers of the parts of a class file are stable, and with them
`ClassFile.readParts`, which reads a class file and leaves what follows it
alone.  Only the check for the end of the input, which comes after it, looks at
the bytes that are left over (`ClassFile.parse_eq`).
-/

namespace ClassDelta

open Codec

/-! ## Pool entries -/

namespace Constant

theorem stable_fail {α : Type} (index : PoolIndex) {defect : PoolDefect}
    (h : defect ≠ .truncated) : (fail index defect : Reader α).Stable :=
  Reader.stable_throw (.pool index h)

theorem stable_text (index : PoolIndex) : (readText index).Stable := by
  refine stable_uint16.bind fun length => ?_
  have hlt := length.toNat_lt
  have hlarge := Reader.le_largestRequest (show length.toNat < 2 ^ 32 by omega)
  refine (Reader.stable_take hlarge).bind fun bytes => ?_
  split
  · exact Reader.stable_pure _
  · exact stable_fail index (by decide)

theorem stable_handle (index : PoolIndex) : (readHandle index).Stable := by
  refine stable_uint8.bind fun code => ?_
  split
  · exact stable_uint16.bind fun target => Reader.stable_pure _
  · exact stable_fail index (by simp)

theorem stable_two (build : UInt16 → UInt16 → Constant) : (readTwo build).Stable :=
  stable_uint16.bind fun first =>
    stable_uint16.bind fun second => Reader.stable_pure (build first second)

theorem stable_payload (index : PoolIndex) (kind : ConstantKind) :
    (readPayload index kind).Stable := by
  cases kind with
  | utf8 => exact stable_text index
  | methodHandle => exact stable_handle index
  | integer => exact stable_int32.map integer
  | float => exact stable_uint32.map float
  | long => exact stable_int64.map long
  | double => exact stable_uint64.map double
  | fieldRef | methodRef | interfaceMethodRef | nameAndType | dynamic | invokeDynamic =>
    exact stable_two _
  | classRef | string | methodType | moduleRef | packageRef => exact stable_uint16.map _

/-- Blaming an entry for the end of the input leaves it an error of that kind,
and there is no other error that it changes. -/
theorem stable_blamed {α : Type} {reader : Reader α} (h : reader.Stable) (index : PoolIndex) :
    (reader.mapError (blame index)).Stable := by
  refine h.mapError ?_ ?_
  · intro error hcut
    cases hcut with
    | input offset needed available => exact .pool index
    | pool other => exact .pool other
  · intro error hfinal
    cases hfinal <;> rfl

theorem stable_read (index : PoolIndex) : (read index).Stable := by
  refine stable_blamed (stable_uint8.bind fun tag => ?_) index
  split
  · exact stable_payload index _
  · exact stable_fail index (by simp)

end Constant

/-! ## Pools -/

namespace Pool

theorem stable_readEntries (free : Nat) (entries : OffsetVector Constant) :
    (readEntries free entries).Stable := by
  induction free using Nat.strongRecOn generalizing entries with
  | ind free ih =>
    cases free with
    | zero => exact Reader.stable_pure entries
    | succ free =>
      rw [readEntries]
      refine (Constant.stable_read _).bind fun constant => ?_
      split
      · cases free with
        | zero => exact Constant.stable_fail _ (by decide)
        | succ free => exact ih free (by omega) _
      · exact ih free (by omega) _

theorem stable_read : Pool.read.Stable := by
  refine (Constant.stable_blamed stable_uint16 0).bind fun count => ?_
  split
  · exact Constant.stable_fail 0 (by decide)
  · refine (stable_readEntries _ _).bind fun entries => ?_
    simp only
    split
    · exact Constant.stable_fail _ (by simp)
    · exact Reader.stable_pure _

end Pool

/-! ## Behind the pool -/

theorem RawAttribute.stable_codec : codec.read.Stable := by
  refine stable_uint16.bind fun name => stable_uint32.bind fun length => ?_
  have hlt := length.toNat_lt
  have hlarge := Reader.le_largestRequest (show length.toNat < 2 ^ 32 by omega)
  exact (Reader.stable_take hlarge).bind fun info => Reader.stable_pure _

theorem RawMember.stable_codec (scope : FlagScope) : (codec scope).read.Stable :=
  stable_via (stable_pair (stable_flags scope) <| stable_pair stable_uint16 <|
    stable_pair stable_uint16 <| stable_counted RawAttribute.stable_codec) _ _

theorem ClassBody.stable_codec : codec.read.Stable :=
  stable_via (stable_pair (stable_flags .ofClass) <| stable_pair stable_uint16 <|
    stable_pair stable_uint16 <| stable_pair (stable_counted stable_uint16) <|
    stable_pair (stable_counted (RawMember.stable_codec .ofField)) <|
    stable_pair (stable_counted (RawMember.stable_codec .ofMethod)) <|
    stable_counted RawAttribute.stable_codec) _ _

/-! ## Whole class files -/

namespace ClassFile

theorem stable_version (supported : VersionRange) : (readVersion supported).Stable := by
  refine stable_uint32.bind fun found => ?_
  split
  · refine Codec.stable_version.bind fun version => ?_
    split
    · exact Reader.stable_pure version
    · exact Reader.stable_throw (.version version supported)
  · exact Reader.stable_throw (.badMagic found)

/-- Read a class file, whatever follows it. -/
def readParts (supported : VersionRange) : Reader ClassFile := do
  let (version, pool) ← readPreamble supported
  let body ← ClassBody.codec.read
  return { body with version, pool }

theorem stable_parts (supported : VersionRange) : (readParts supported).Stable := by
  have hpreamble : (readPreamble supported).Stable :=
    (stable_version supported).bind fun version =>
      Pool.stable_read.bind fun pool => Reader.stable_pure (version, pool)
  exact hpreamble.bind fun parts => ClassBody.stable_codec.bind fun body => Reader.stable_pure _

/-- The end of the input is looked for once, when all parts have been read. -/
theorem parse_eq (supported : VersionRange) (bytes : Bytes) :
    parse supported bytes =
      match readParts supported (Cursor.start bytes) with
      | .ok file after =>
        if after.rest = [] then .ok file
        else .error (.malformedClass (.trailingBytes after.rest.length))
      | .error error _ => .error error := by
  have hread : read supported = readParts supported >>= fun file => (do
      let cursor ← get
      if cursor.atEnd then return file
      else throw (.malformedClass (.trailingBytes cursor.remaining))) := by
    simp only [read, readParts, bind_assoc, pure_bind]
  unfold parse Reader.run
  cases hparts : readParts supported (Cursor.start bytes) with
  | error error after =>
    rw [hread, Stateful.bind_of_error hparts]
  | ok file after =>
    rw [hread, Stateful.bind_of_ok hparts]
    obtain ⟨position, rest⟩ := after
    cases rest <;> rfl

/-- What was read with nothing left over. -/
theorem parse_eq_ok_iff {supported : VersionRange} {bytes : Bytes} {file : ClassFile} :
    parse supported bytes = .ok file ↔
      ∃ position, readParts supported (Cursor.start bytes) = .ok file ⟨position, []⟩ := by
  rw [parse_eq]
  cases readParts supported (Cursor.start bytes) with
  | error error after => simp
  | ok found after =>
    obtain ⟨position, rest⟩ := after
    cases rest <;> simp

/-- Too many bytes are as many as were left over.  No part of a class file
fails like this. -/
theorem parse_eq_trailingBytes_iff {supported : VersionRange} {bytes : Bytes} {count : Nat} :
    parse supported bytes = .error (.malformedClass (.trailingBytes count)) ↔
      ∃ file after, readParts supported (Cursor.start bytes) = .ok file after ∧
        after.rest.length = count ∧ after.rest ≠ [] := by
  rw [parse_eq]
  cases hparts : readParts supported (Cursor.start bytes) with
  | ok file after =>
    by_cases hrest : after.rest = []
    · simp [hrest]
    · simp only [if_neg hrest, Except.error.injEq, ParseError.malformedClass.injEq,
        StructureDefect.trailingBytes.injEq, EStateM.Result.ok.injEq]
      constructor
      · intro hcount
        exact ⟨file, after, ⟨rfl, rfl⟩, hcount, hrest⟩
      · rintro ⟨_, _, ⟨rfl, rfl⟩, hcount, _⟩
        exact hcount
  | error error after =>
    have hother : error ≠ .malformedClass (.trailingBytes count) := by
      rintro rfl
      rcases (stable_parts supported).error hparts with hcut | ⟨hfinal, _⟩
      · cases hcut
      · cases hfinal
    simp [hother]

/-- With more bytes behind it, an input that leaves bytes over leaves those
over as well. -/
theorem parse_append_of_parts {supported : VersionRange} {bytes : Bytes} {file : ClassFile}
    {after : Cursor} (h : readParts supported (Cursor.start bytes) = .ok file after)
    {suffix : Bytes} (hrest : after.rest ++ suffix ≠ []) :
    parse supported (bytes ++ suffix) =
      .error (.malformedClass (.trailingBytes (after.rest.length + suffix.length))) := by
  have hlonger := (stable_parts supported).ok h suffix
  refine parse_eq_trailingBytes_iff.2 ⟨file, _, hlonger, ?_, hrest⟩
  exact List.length_append

/-- An error that no further bytes can mend stays. -/
theorem parse_append_of_final {supported : VersionRange} {bytes : Bytes} {error : ParseError}
    (hfinal : error.IsFinal) (h : parse supported bytes = .error error) (suffix : Bytes) :
    parse supported (bytes ++ suffix) = .error error := by
  rw [parse_eq] at h
  cases hparts : readParts supported (Cursor.start bytes) with
  | ok file after =>
    rw [hparts] at h
    simp only at h
    split at h
    · cases h
    · cases h
      cases hfinal
  | error found after =>
    rw [hparts] at h
    cases h
    rcases (stable_parts supported).error hparts with hcut | ⟨_, hstays⟩
    · exact absurd hcut hfinal.not_isCutShort
    · have hlonger : readParts supported (Cursor.start (bytes ++ suffix)) = _ := hstays suffix
      rw [parse_eq, hlonger]

/-- A part of a class file without its end is too short. -/
theorem parse_front_of_ok {supported : VersionRange} {front suffix : Bytes} {file : ClassFile}
    (hsuffix : suffix ≠ []) (h : parse supported (front ++ suffix) = .ok file) :
    ∃ error, parse supported front = .error error ∧ error.IsCutShort := by
  obtain ⟨position, hwhole⟩ := parse_eq_ok_iff.1 h
  have hextended : readParts supported ((Cursor.start front).extend suffix) =
      .ok file ⟨position, []⟩ := hwhole
  obtain ⟨error, after, hparts, hcut⟩ := (stable_parts supported).cutShort_of_ok hsuffix hextended
  refine ⟨error, ?_, hcut⟩
  rw [parse_eq, hparts]

/-- A class file ends where its last attribute does: with any bytes behind it
there are so many too many, and every shorter part of it is cut short.  An
error stays what it is when bytes are added, and those too many add up, unless
the input was cut short. -/
theorem parse_append (supported : VersionRange) (bytes : Bytes) :
    (∀ file, parse supported bytes = .ok file →
      (∀ suffix, suffix ≠ [] → parse supported (bytes ++ suffix) =
        .error (.malformedClass (.trailingBytes suffix.length))) ∧
      ∀ front, front <+: bytes → front ≠ bytes →
        ∃ error, parse supported front = .error error ∧ error.IsCutShort) ∧
    (∀ error : ParseError, error.IsFinal → parse supported bytes = .error error →
      ∀ suffix, parse supported (bytes ++ suffix) = .error error) ∧
    ∀ count, parse supported bytes = .error (.malformedClass (.trailingBytes count)) →
      ∀ suffix, parse supported (bytes ++ suffix) =
        .error (.malformedClass (.trailingBytes (count + suffix.length))) := by
  refine ⟨fun file hok => ⟨fun suffix hsuffix => ?_, fun front hfront hshorter => ?_⟩,
    fun error hfinal herror suffix => parse_append_of_final hfinal herror suffix,
    fun count htrailing suffix => ?_⟩
  · obtain ⟨position, hparts⟩ := parse_eq_ok_iff.1 hok
    have hrest : [] ++ suffix ≠ [] := hsuffix
    have happend := parse_append_of_parts hparts hrest
    rw [List.length_nil, Nat.zero_add] at happend
    exact happend
  · obtain ⟨suffix, rfl⟩ := hfront
    have hsuffix : suffix ≠ [] := by
      rintro rfl
      exact hshorter (List.append_nil front).symm
    exact parse_front_of_ok hsuffix hok
  · obtain ⟨file, after, hparts, rfl, hrest⟩ := parse_eq_trailingBytes_iff.1 htrailing
    refine parse_append_of_parts hparts ?_
    simp [hrest]

/-- The sample with bytes too many and with one too few, and a pool without
slots, which is wrong whatever follows. -/
theorem parse_append_wideEntrySample :
    parse .everyRelease wideEntrySample.write = .ok wideEntrySample ∧
      parse .everyRelease (wideEntrySample.write ++ [0, 0] ++ [0]) =
        .error (.malformedClass (.trailingBytes 3)) ∧
      (∃ error, parse .everyRelease wideEntrySample.write.dropLast = .error error ∧
        error.IsCutShort) ∧
      parse .everyRelease ([0xCA, 0xFE, 0xBA, 0xBE, 0, 0, 0, 52, 0, 0] ++ [0, 33]) =
        .error (.malformedPool 0 .emptyPool) := by
  have hsample := parse_write_of_fits wideEntrySample_fits
  obtain ⟨hlonger, hshorter⟩ := (parse_append .everyRelease wideEntrySample.write).1 _ hsample
  obtain ⟨_, _, htrailing⟩ := parse_append .everyRelease (wideEntrySample.write ++ [0, 0])
  obtain ⟨_, hfinal, _⟩ :=
    parse_append .everyRelease [0xCA, 0xFE, 0xBA, 0xBE, 0, 0, 0, 52, 0, 0]
  refine ⟨hsample, htrailing 2 (hlonger [0, 0] (by simp)) [0], ?_, ?_⟩
  · exact hshorter _ (List.dropLast_prefix _) (by decide)
  · exact hfinal _ (.pool 0 (by decide)) (by rfl) [0, 33]

end ClassFile

end ClassDelta
