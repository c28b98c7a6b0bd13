import ClassDelta.Proofs.Bytes.Failing
import ClassDelta.Proofs.ClassFile.Canonical

/-!
# What is wrong with an entry

Bytes either begin with an entry of a constant pool or have one of a few faults,
and the fault decides the defect that is reported (`EntryFault`).  Which of the
two it is can be told from the bytes alone (`EntryFault.entry_or_fault`).

A reader agrees: it reads every entry (`VerbatimConstant.reads_write`), and on
bytes with a fault it fails with the defect of the fault (`EntryFault.fails`).
-/

namespace ClassDelta

open Codec

/-- The size of the entries of a kind, without their tag.  Texts can have any
size, and what follows the number of a method handle is not looked at unless the
number is good. -/
def ConstantKind.fixedSize? : ConstantKind → Option Nat
  | utf8 | methodHandle => none
  | classRef | string | methodType | moduleRef | packageRef => some 2
  | integer | float | fieldRef | methodRef | interfaceMethodRef | nameAndType | dynamic
  | invokeDynamic => some 4
  | long | double => some 8

/-- Bytes that do not begin with an entry, and the defect that this is. -/
inductive EntryFault : Bytes → PoolDefect → Prop
  | noTag : EntryFault [] .truncated
  | unknownTag {tag : UInt8} (h : ∀ kind : ConstantKind, kind.tag ≠ tag) (rest : Bytes) :
    EntryFault (tag :: rest) (.unknownTag tag)
  | cutOff {kind : ConstantKind} {size : Nat} {rest : Bytes} (hsize : kind.fixedSize? = some size)
    (hshort : rest.length < size) : EntryFault (kind.tag :: rest) .truncated
  | lengthCutOff {rest : Bytes} (hshort : rest.length < 2) :
    EntryFault (ConstantKind.utf8.tag :: rest) .truncated
  | textCutOff {length : UInt16} {rest : Bytes} (hshort : rest.length < length.toNat) :
    EntryFault (ConstantKind.utf8.tag :: (uint16.write length ++ rest)) .truncated
  | invalidText {length : UInt16} {bytes : Bytes} (hlength : bytes.length = length.toNat)
    (h : ModifiedUtf8.decode bytes = none) (rest : Bytes) :
    EntryFault (ConstantKind.utf8.tag :: (uint16.write length ++ (bytes ++ rest))) .invalidText
  | noHandleKind : EntryFault [ConstantKind.methodHandle.tag] .truncated
  | invalidHandleKind {code : UInt8} (h : ¬ (1 ≤ code.toNat ∧ code.toNat ≤ 9)) (rest : Bytes) :
    EntryFault (ConstantKind.methodHandle.tag :: code :: rest) (.invalidHandleKind code)
  | targetCutOff {code : UInt8} {rest : Bytes} (h : 1 ≤ code.toNat ∧ code.toNat ≤ 9)
    (hshort : rest.length < 2) :
    EntryFault (ConstantKind.methodHandle.tag :: code :: rest) .truncated

/-! ## Tags and handle kinds -/

theorem ConstantKind.ofTag?_eq_none_iff {tag : UInt8} :
    ofTag? tag = none ↔ ∀ kind : ConstantKind, kind.tag ≠ tag := by
  constructor
  · rintro hnone kind rfl
    rw [ofTag?_tag] at hnone
    contradiction
  · intro hunknown
    cases hkind : ofTag? tag with
    | none => rfl
    | some kind => exact absurd (tag_of_ofTag? hkind) (hunknown kind)

theorem HandleKind.ofCode?_eq_none_iff {code : UInt8} :
    ofCode? code = none ↔ ¬ (1 ≤ code.toNat ∧ code.toNat ≤ 9) := by
  unfold ofCode?
  split <;> simp_all
  omega

/-! ## Entries are read -/

/-- Every entry is read, whatever the form of its text. -/
theorem VerbatimConstant.reads_write (index : PoolIndex) (entry : VerbatimConstant) :
    (Constant.read index).Reads entry.write entry.constant := by
  cases entry with
  | text spelled =>
    have hlength : (UInt16.ofNat spelled.bytes.length).toNat = spelled.bytes.length := by
      have hle := spelled.length_le
      rw [UInt16.toNat_ofNat']
      omega
    apply Reader.Reads.mapError (Constant.blame index)
    apply (roundTrips_uint8.reads ConstantKind.utf8.tag trivial).bind
    rw [ConstantKind.ofTag?_tag]
    apply (roundTrips_uint16.reads _ trivial).bind
    rw [hlength]
    apply (Reader.reads_take spelled.bytes).bind_nil
    rw [spelled.decode_bytes]
    exact Reader.reads_pure _
  | other constant notText =>
    have hfits : constant.Fits := by
      cases constant with
      | utf8 text => exact absurd rfl notText
      | _ => exact trivial
    exact Constant.reads_write index hfits

theorem Constant.fails_fail {α : Type} (index : PoolIndex) (defect : PoolDefect) (bytes : Bytes) :
    (fail index defect : Reader α).Fails bytes (· = .malformedPool index defect) :=
  fun position => ⟨_, ⟨position, bytes⟩, rfl, rfl⟩

namespace EntryFault

/-! ## Faults are reported -/

/-- The error of an entry with this defect, where it is read and where the whole
entry is. -/
def Blames (index : PoolIndex) (defect : PoolDefect) (error : ParseError) : Prop :=
  Constant.blame index error = .malformedPool index defect

theorem blames_truncated (index : PoolIndex) {error : ParseError} (h : error.IsTruncated) :
    Blames index .truncated error := by
  obtain ⟨offset, needed, available, rfl⟩ := h
  rfl

theorem fails_fail {α : Type} (index : PoolIndex) (defect : PoolDefect) (bytes : Bytes) :
    (Constant.fail index defect : Reader α).Fails bytes (Blames index defect) := by
  refine (Constant.fails_fail index defect bytes).mono ?_
  rintro _ rfl
  rfl

/-- Entries of a fixed size are read whatever they are. -/
theorem isTotal_payload {kind : ConstantKind} {size : Nat} (index : PoolIndex)
    (hsize : kind.fixedSize? = some size) : (Constant.readPayload index kind).IsTotal size := by
  have htwo (build : UInt16 → UInt16 → Constant) : (Constant.readTwo build).IsTotal 4 :=
    isTotal_uint16.bind fun first =>
      isTotal_uint16.bind fun second => Reader.isTotal_pure (build first second)
  cases kind <;> simp only [ConstantKind.fixedSize?, Option.some.injEq, reduceCtorEq] at hsize <;>
    subst hsize
  case integer => exact isTotal_int32.map _
  case float => exact isTotal_uint32.map _
  case long => exact isTotal_int64.map _
  case double => exact isTotal_uint64.map _
  case fieldRef | methodRef | interfaceMethodRef | nameAndType | dynamic | invokeDynamic =>
    exact htwo _
  all_goals exact isTotal_uint16.map _

theorem reads_byte (byte : UInt8) : uint8.read.Reads [byte] byte := by
  have hread := roundTrips_uint8.reads byte trivial
  rw [write_uint8] at hread
  exact hread

theorem fails_behind_byte {α : Type} {next : UInt8 → Reader α} {such : ParseError → Prop}
    {byte : UInt8} {rest : Bytes} (h : (next byte).Fails rest such) :
    (uint8.read >>= next).Fails (byte :: rest) such :=
  (reads_byte byte).fails h

/-- Behind a tag, the error is that of what follows. -/
theorem fails_read {kind : ConstantKind} {index : PoolIndex} {rest : Bytes} {defect : PoolDefect}
    (h : (Constant.readPayload index kind).Fails rest (Blames index defect)) :
    (Constant.read index).Fails (kind.tag :: rest) (· = .malformedPool index defect) := by
  refine Reader.Fails.mapError ?_ fun _ hblames => hblames
  apply fails_behind_byte
  rw [ConstantKind.ofTag?_tag]
  exact h

/-- An entry with a fault is read as the defect of that fault. -/
theorem fails {bytes : Bytes} {defect : PoolDefect} (h : EntryFault bytes defect)
    (index : PoolIndex) :
    (Constant.read index).Fails bytes (· = .malformedPool index defect) := by
  have htruncated {α : Type} {reader : Reader α} {bytes : Bytes}
      (h : reader.Fails bytes ParseError.IsTruncated) :
      reader.Fails bytes (Blames index .truncated) := h.mono fun _ => blames_truncated index
  cases h with
  | noTag =>
    have hempty := htruncated (isTotal_uint8.fails [] (by decide))
    exact Reader.Fails.mapError (hempty.bind _) fun _ hblames => hblames
  | @unknownTag tag hunknown rest =>
    refine Reader.Fails.mapError ?_ fun _ hblames => hblames
    apply fails_behind_byte
    rw [ConstantKind.ofTag?_eq_none_iff.2 hunknown]
    exact fails_fail index (.unknownTag tag) rest
  | cutOff hsize hshort =>
    exact fails_read (htruncated ((isTotal_payload index hsize).fails _ hshort))
  | lengthCutOff hshort =>
    exact fails_read ((htruncated (isTotal_uint16.fails _ hshort)).bind _)
  | @textCutOff length rest hshort =>
    have hlarge := Reader.le_largestRequest (Nat.lt_trans length.toNat_lt (by decide))
    apply fails_read
    apply (roundTrips_uint16.reads length trivial).fails
    exact (htruncated (Reader.fails_take hlarge hshort)).bind _
  | @invalidText length bytes hlength hinvalid rest =>
    have htake := Reader.reads_take bytes
    rw [hlength] at htake
    apply fails_read
    apply (roundTrips_uint16.reads length trivial).fails
    apply htake.fails
    rw [hinvalid]
    exact fails_fail index .invalidText rest
  | noHandleKind =>
    exact fails_read ((htruncated (isTotal_uint8.fails [] (by decide))).bind _)
  | @invalidHandleKind code hinvalid rest =>
    apply fails_read
    apply fails_behind_byte
    rw [HandleKind.ofCode?_eq_none_iff.2 hinvalid]
    exact fails_fail index (.invalidHandleKind code) rest
  | @targetCutOff code rest hvalid hshort =>
    have hkind : HandleKind.ofCode? code ≠ none := fun hnone =>
      HandleKind.ofCode?_eq_none_iff.1 hnone hvalid
    obtain ⟨kind, hkind⟩ := Option.ne_none_iff_exists'.1 hkind
    apply fails_read
    apply fails_behind_byte
    rw [hkind]
    exact (htruncated (isTotal_uint16.fails rest hshort)).bind _

/-! ## Entries or faults -/

/-- An entry of the kind stands behind the tag. -/
def BeginsWith (kind : ConstantKind) (bytes : Bytes) : Prop :=
  ∃ (entry : VerbatimConstant) (rest : Bytes),
    entry.constant.kind = kind ∧ bytes = entry.payload ++ rest

theorem text_or_fault (bytes : Bytes) :
    BeginsWith .utf8 bytes ∨ ∃ defect, EntryFault (ConstantKind.utf8.tag :: bytes) defect := by
  by_cases hshort : bytes.length < 2
  · exact .inr ⟨_, .lengthCutOff hshort⟩
  obtain ⟨length, later, rfl⟩ :=
    writesBack_uint16.exists_write isTotal_uint16 (Nat.le_of_not_lt hshort)
  by_cases hcut : later.length < length.toNat
  · exact .inr ⟨_, .textCutOff hcut⟩
  obtain ⟨front, rest, hlength, rfl⟩ : ∃ front rest, front.length = length.toNat ∧
      later = front ++ rest :=
    ⟨later.take length.toNat, later.drop length.toNat,
      List.length_take_of_le (Nat.le_of_not_lt hcut), (List.take_append_drop _ _).symm⟩
  cases hdecode : ModifiedUtf8.decode front with
  | none => exact .inr ⟨_, .invalidText hlength hdecode rest⟩
  | some text =>
    have hle : front.length ≤ 65535 := by
      have hlt := length.toNat_lt
      omega
    refine .inl ⟨.text ⟨front, text, hdecode, hle⟩, rest, rfl, ?_⟩
    simp only [VerbatimConstant.payload, hlength, UInt16.ofNat_toNat, List.append_assoc]

theorem handle_or_fault (bytes : Bytes) :
    BeginsWith .methodHandle bytes ∨
      ∃ defect, EntryFault (ConstantKind.methodHandle.tag :: bytes) defect := by
  rcases bytes with _ | ⟨code, bytes⟩
  · exact .inr ⟨_, .noHandleKind⟩
  by_cases hvalid : 1 ≤ code.toNat ∧ code.toNat ≤ 9
  · by_cases hshort : bytes.length < 2
    · exact .inr ⟨_, .targetCutOff hvalid hshort⟩
    obtain ⟨target, rest, rfl⟩ :=
      writesBack_uint16.exists_write isTotal_uint16 (Nat.le_of_not_lt hshort)
    obtain ⟨kind, hkind⟩ := Option.ne_none_iff_exists'.1 fun hnone =>
      HandleKind.ofCode?_eq_none_iff.1 hnone hvalid
    obtain rfl := HandleKind.code_of_ofCode? hkind
    refine .inl ⟨.other (.methodHandle kind target) ConstantKind.noConfusion, rest, rfl, ?_⟩
    show _ = uint8.write kind.code ++ uint16.write target ++ rest
    rw [write_uint8]
    rfl
  · exact .inr ⟨_, .invalidHandleKind hvalid bytes⟩

/-- Behind a tag there is an entry of its kind, unless the two together have a
fault. -/
theorem payload_or_fault (kind : ConstantKind) (bytes : Bytes) :
    BeginsWith kind bytes ∨ ∃ defect, EntryFault (kind.tag :: bytes) defect := by
  cases hsize : kind.fixedSize? with
  | some size =>
    by_cases hshort : bytes.length < size
    · exact .inr ⟨_, .cutOff hsize hshort⟩
    · obtain ⟨constant, after, hread, -⟩ :=
        (isTotal_payload 0 hsize).ok (.start bytes) (Nat.le_of_not_lt hshort)
      obtain ⟨_, hbytes, entry, hkind, rfl, -⟩ := Constant.takes_payload 0 kind _ _ _ hread
      exact .inl ⟨entry, after.rest, hkind, hbytes⟩
  | none =>
    cases kind <;> simp only [ConstantKind.fixedSize?, reduceCtorEq] at hsize
    case utf8 => exact text_or_fault bytes
    case methodHandle => exact handle_or_fault bytes

/-- All bytes either begin with an entry or have a fault. -/
theorem entry_or_fault (bytes : Bytes) :
    (∃ (entry : VerbatimConstant) (rest : Bytes), bytes = entry.write ++ rest) ∨
      ∃ defect, EntryFault bytes defect := by
  cases bytes with
  | nil => exact .inr ⟨_, .noTag⟩
  | cons tag bytes =>
    cases htag : ConstantKind.ofTag? tag with
    | none => exact .inr ⟨_, .unknownTag (ConstantKind.ofTag?_eq_none_iff.1 htag) bytes⟩
    | some kind =>
      obtain rfl := ConstantKind.tag_of_ofTag? htag
      rcases payload_or_fault kind bytes with ⟨entry, rest, rfl, rfl⟩ | hfault
      · refine .inl ⟨entry, rest, ?_⟩
        rw [VerbatimConstant.write, write_uint8]
        rfl
      · exact .inr hfault

end EntryFault
end ClassDelta
