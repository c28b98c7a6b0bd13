import ClassDelta.Pool.Constant
import ClassDelta.Proofs.Bytes.RoundTrip
import ClassDelta.Proofs.Text.ModifiedUtf8

/-!
# Reading and writing pool entries

`Constant.Fits` is the one limit that an entry has to keep to be written
without loss: the length of a text is a 16-bit number.

* `reads_write`: an entry that fits reads back from its written form.
* `returns_read`: only entries that fit are ever read.
-/

namespace ClassDelta.Constant

/-- The 16-bit length of a text can count its bytes.  All other entries fit. -/
def Fits : Constant → Prop
  | utf8 text => (ModifiedUtf8.encode text).length ≤ 65535
  | _ => True

instance : DecidablePred Fits
  | utf8 text => inferInstanceAs (Decidable ((ModifiedUtf8.encode text).length ≤ 65535))
  | integer _ | float _ | long _ | double _ | named _ _ | member _ _ _ | nameAndType _ _
  | methodHandle _ _ | dynamic _ _ _ => .isTrue trivial

/-- An entry takes up one slot or two. -/
theorem slots_eq (constant : Constant) : constant.slots = 1 ∨ constant.slots = 2 := by
  cases constant <;> simp [slots]

theorem slots_pos (constant : Constant) : 0 < constant.slots := by
  rcases constant.slots_eq with h | h <;> omega

/-! ## Writing, then reading -/

theorem reads_text (index : PoolIndex) {text : String} (h : (utf8 text).Fits) :
    (readText index).Reads (utf8 text).payload (utf8 text) := by
  have hlength : (UInt16.ofNat (ModifiedUtf8.encode text).length).toNat =
      (ModifiedUtf8.encode text).length := by
    have : (ModifiedUtf8.encode text).length ≤ 65535 := h
    rw [UInt16.toNat_ofNat']
    omega
  refine (Codec.roundTrips_uint16.reads _ trivial).bind ?_
  rw [hlength]
  refine (Reader.reads_take (ModifiedUtf8.encode text)).bind_nil ?_
  rw [ModifiedUtf8.decode_encode]
  exact Reader.reads_pure (utf8 text)

theorem reads_handle (index : PoolIndex) (kind : HandleKind) (target : PoolIndex) :
    (readHandle index).Reads (methodHandle kind target).payload (methodHandle kind target) := by
  refine (Codec.roundTrips_uint8.reads kind.code trivial).bind ?_
  rw [HandleKind.ofCode?_code]
  exact (Codec.roundTrips_uint16.reads target trivial).bind_nil
    (Reader.reads_pure (methodHandle kind target))

theorem reads_two (build : UInt16 → UInt16 → Constant) (first second : UInt16) :
    (readTwo build).Reads (Codec.uint16.write first ++ Codec.uint16.write second)
      (build first second) :=
  (Codec.roundTrips_uint16.reads first trivial).bind
    ((Codec.roundTrips_uint16.reads second trivial).bind_nil
      (Reader.reads_pure (build first second)))

/-- Behind its tag, an entry reads back. -/
theorem reads_payload (index : PoolIndex) {constant : Constant} (h : constant.Fits) :
    (readPayload index constant.kind).Reads constant.payload constant := by
  cases constant with
  | utf8 text => exact reads_text index h
  | integer value => exact (Codec.roundTrips_int32.reads value trivial).map integer
  | float bits => exact (Codec.roundTrips_uint32.reads bits trivial).map float
  | long value => exact (Codec.roundTrips_int64.reads value trivial).map long
  | double bits => exact (Codec.roundTrips_uint64.reads bits trivial).map double
  | named role text =>
    cases role <;> exact (Codec.roundTrips_uint16.reads text trivial).map _
  | member role owner described => cases role <;> exact reads_two _ owner described
  | nameAndType name descriptor => exact reads_two nameAndType name descriptor
  | methodHandle kind target => exact reads_handle index kind target
  | dynamic role bootstrap described => cases role <;> exact reads_two _ bootstrap described

theorem reads_write (index : PoolIndex) {constant : Constant} (h : constant.Fits) :
    (read index).Reads constant.write constant := by
  refine Reader.Reads.mapError (blame index) ?_
  refine (Codec.roundTrips_uint8.reads constant.kind.tag trivial).bind ?_
  rw [ConstantKind.ofTag?_tag]
  exact reads_payload index h

/-! ## What is read -/

theorem returns_fail {α : Type} {property : α → Prop} (index : PoolIndex) (defect : PoolDefect) :
    (fail index defect : Reader α).Returns property :=
  Reader.returns_throw _

/-- A text that was read takes no more bytes than it was read from. -/
theorem returns_text (index : PoolIndex) : (readText index).Returns Fits := by
  refine (Reader.returns_any _).bind fun length _ => ?_
  have hlt := length.toNat_lt
  have hlarge := Reader.le_largestRequest (show length.toNat < 2 ^ 32 by omega)
  refine (Reader.returns_take hlarge).bind fun bytes hbytes => ?_
  split
  · rename_i text hdecode
    have hle := (ModifiedUtf8.rewrites_encode hdecode).length_le
    refine Reader.returns_pure ?_
    show (ModifiedUtf8.encode text).length ≤ 65535
    omega
  · exact returns_fail _ _

theorem returns_handle (index : PoolIndex) : (readHandle index).Returns Fits := by
  refine (Reader.returns_any _).bind fun code _ => ?_
  split
  · exact (Reader.returns_any _).bind fun target _ => Reader.returns_pure trivial
  · exact returns_fail _ _

theorem returns_two {build : UInt16 → UInt16 → Constant}
    (h : ∀ first second, (build first second).Fits) : (readTwo build).Returns Fits :=
  (Reader.returns_any _).bind fun first _ =>
    (Reader.returns_any _).bind fun second _ => Reader.returns_pure (h first second)

theorem returns_payload (index : PoolIndex) (kind : ConstantKind) :
    (readPayload index kind).Returns Fits := by
  have hone {α : Type} {reader : Reader α} {build : α → Constant}
      (h : ∀ value, (build value).Fits) : (build <$> reader).Returns Fits :=
    (Reader.returns_any reader).map fun value _ => h value
  cases kind with
  | utf8 => exact returns_text index
  | methodHandle => exact returns_handle index
  | fieldRef | methodRef | interfaceMethodRef | nameAndType | dynamic | invokeDynamic =>
    exact returns_two fun _ _ => trivial
  | _ => exact hone fun _ => trivial

theorem returns_read (index : PoolIndex) : (read index).Returns Fits := by
  refine Reader.Returns.mapError ?_
  refine (Reader.returns_any _).bind fun tag _ => ?_
  split
  · exact returns_payload index _
  · exact returns_fail _ _

end ClassDelta.Constant
