import ClassDelta.AccessFlags
import ClassDelta.Proofs.Bytes.Reading

/-!
# Codecs that read back what they wrote

`Codec.RoundTrips codec fits` ties the two directions of a codec to one
condition on values.  A value that fits reads back from its written form and
is not shorter than the codec says; and nothing but values that fit is ever
read.  Values that do not fit can be written, but their counts or lengths are
cut off on the way.

Each combinator keeps the property, so the codec of a nested format
round-trips because its parts do.
-/

namespace ClassDelta.Codec

variable {α β : Type}

/-- The values that fit are the values that read back. -/
structure RoundTrips (codec : Codec α) (fits : α → Prop) : Prop where
  minSize_le : ∀ value, fits value → codec.minSize ≤ (codec.write value).length
  reads : ∀ value, fits value → codec.read.Reads (codec.write value) value
  returns : codec.read.Returns fits

/-- Values that fit have bytes of their own. -/
theorem RoundTrips.write_injective {codec : Codec α} {fits : α → Prop} (h : codec.RoundTrips fits)
    {left right : α} (hleft : fits left) (hright : fits right)
    (heq : codec.write left = codec.write right) : left = right := by
  have hread := h.reads left hleft 0 []
  rw [heq, h.reads right hright 0 []] at hread
  cases hread
  rfl

/-! ## Numbers and words -/

theorem roundTrips_number {width : Nat} (hwidth : width ≤ Reader.largestRequest) :
    (number width).RoundTrips fun value => value < 256 ^ width where
  minSize_le value _ := Nat.le_of_eq (BigEndian.length_encode width value).symm
  reads value hvalue := Reader.reads_number width value hvalue
  returns := Reader.returns_number hwidth

/-- Another view of the same bytes.  Going there and back has to lose nothing
of a value that fits. -/
theorem RoundTrips.via {codec : Codec α} {fits : α → Prop} {fits' : β → Prop} {view : β → α}
    {of : α → β} (h : codec.RoundTrips fits) (hview : ∀ value, fits' value → fits (view value))
    (hof : ∀ raw, fits raw → fits' (of raw))
    (hback : ∀ value, fits' value → of (view value) = value) : (codec.via view of).RoundTrips fits' where
  minSize_le value hvalue := h.minSize_le (view value) (hview value hvalue)
  reads value hvalue := by
    have hread := (h.reads (view value) (hview value hvalue)).map of
    rw [hback value hvalue] at hread
    exact hread
  returns := h.returns.map hof

/-- A view that every value has. -/
theorem RoundTrips.viaAny {codec : Codec α} {view : β → α} {of : α → β}
    (h : codec.RoundTrips fun _ => True) (hback : ∀ value, of (view value) = value) :
    (codec.via view of).RoundTrips fun _ => True :=
  h.via (fun _ _ => trivial) (fun _ _ => trivial) fun value _ => hback value

theorem roundTrips_uint8 : uint8.RoundTrips fun _ => True :=
  (roundTrips_number (by decide)).via (fun value _ => value.toNat_lt) (fun _ _ => trivial)
    fun _ _ => UInt8.ofNat_toNat

theorem roundTrips_uint16 : uint16.RoundTrips fun _ => True :=
  (roundTrips_number (by decide)).via (fun value _ => value.toNat_lt) (fun _ _ => trivial)
    fun _ _ => UInt16.ofNat_toNat

theorem roundTrips_uint32 : uint32.RoundTrips fun _ => True :=
  (roundTrips_number (by decide)).via (fun value _ => value.toNat_lt) (fun _ _ => trivial)
    fun _ _ => UInt32.ofNat_toNat

theorem roundTrips_uint64 : uint64.RoundTrips fun _ => True :=
  (roundTrips_number (by decide)).via (fun value _ => value.toNat_lt) (fun _ _ => trivial)
    fun _ _ => UInt64.ofNat_toNat

theorem roundTrips_int32 : int32.RoundTrips fun _ => True :=
  roundTrips_uint32.viaAny Int32.toInt32_toUInt32

theorem roundTrips_int64 : int64.RoundTrips fun _ => True :=
  roundTrips_uint64.viaAny Int64.toInt64_toUInt64

/-! ## Combinators -/

theorem RoundTrips.pair {first : Codec α} {second : Codec β} {left : α → Prop} {right : β → Prop}
    (hfirst : first.RoundTrips left) (hsecond : second.RoundTrips right) :
    (first.pair second).RoundTrips fun value => left value.1 ∧ right value.2 where
  minSize_le value hvalue := by
    have hleft := hfirst.minSize_le value.1 hvalue.1
    have hright := hsecond.minSize_le value.2 hvalue.2
    show first.minSize + second.minSize ≤ (first.write value.1 ++ second.write value.2).length
    rw [List.length_append]
    omega
  reads value hvalue :=
    (hfirst.reads value.1 hvalue.1).bind
      ((hsecond.reads value.2 hvalue.2).bind_nil (Reader.reads_pure value))
  returns :=
    hfirst.returns.bind fun left hleft =>
      hsecond.returns.bind fun right hright => Reader.returns_pure ⟨hleft, hright⟩

theorem roundTrips_unit : unit.RoundTrips fun _ => True where
  minSize_le _ _ := Nat.zero_le _
  reads value _ := Reader.reads_pure value
  returns := Reader.returns_any _

/-- A list that a 16-bit count can count. -/
def FitsCounted (fits : α → Prop) (values : List α) : Prop :=
  values.length ≤ 65535 ∧ ∀ value ∈ values, fits value

instance (fits : α → Prop) [DecidablePred fits] : DecidablePred (FitsCounted fits) :=
  fun values => inferInstanceAs (Decidable (values.length ≤ 65535 ∧ ∀ value ∈ values, fits value))

/-- Elements of some least size take up at least that much together. -/
theorem length_mul_le_flatMap {write : α → Bytes} {size : Nat} (values : List α)
    (h : ∀ value ∈ values, size ≤ (write value).length) :
    values.length * size ≤ (values.flatMap write).length := by
  induction values with
  | nil => simp
  | cons value values ih =>
    have hhead := h value (by simp)
    have htail := ih fun later hmem => h later (by simp [hmem])
    rw [List.flatMap_cons, List.length_append, List.length_cons, Nat.succ_mul]
    omega

/-- The count is written in front and read back before the elements are, and
the size check in between lets every written list through. -/
theorem RoundTrips.counted {codec : Codec α} {fits : α → Prop} (h : codec.RoundTrips fits) :
    codec.counted.RoundTrips (FitsCounted fits) where
  minSize_le values _ := by
    have hcount := roundTrips_uint16.minSize_le (UInt16.ofNat values.length) trivial
    show uint16.minSize ≤ (uint16.write _ ++ values.flatMap codec.write).length
    rw [List.length_append]
    omega
  reads values hvalues := by
    have hcount : (UInt16.ofNat values.length).toNat = values.length := by
      have := hvalues.1
      rw [UInt16.toNat_ofNat']
      omega
    refine (roundTrips_uint16.reads (UInt16.ofNat values.length) trivial).bind ?_
    rw [hcount]
    refine Reader.Reads.expect_bind ?_ ?_
    · exact length_mul_le_flatMap values fun value hmem =>
        h.minSize_le value (hvalues.2 value hmem)
    · exact Reader.reads_repeated values [] fun value hmem => h.reads value (hvalues.2 value hmem)
  returns := by
    refine roundTrips_uint16.returns.bind fun count _ => ?_
    refine (Reader.returns_any _).bind fun _ _ => ?_
    have hrepeated := Reader.returns_repeated h.returns count.toNat [] (by simp)
    refine hrepeated.mono fun values hvalues => ?_
    have hlt := count.toNat_lt
    rw [List.length_nil] at hvalues
    exact ⟨by omega, hvalues.2⟩

/-! ## Versions and flags -/

theorem roundTrips_version : Version.codec.RoundTrips fun _ => True :=
  (roundTrips_uint16.pair roundTrips_uint16).via (fun _ _ => ⟨trivial, trivial⟩)
    (fun _ _ => trivial) fun _ _ => rfl

/-- A word with defined bits only is not changed by dropping the others. -/
theorem roundTrips_flags (scope : FlagScope) : (Flags.codec scope).RoundTrips fun _ => True :=
  roundTrips_uint16.viaAny fun flags => by
    have hdefined := flags.defined
    cases flags
    simp only [Flags.ofBits, Flags.mk.injEq]
    exact hdefined

/-! ## Fixed sizes -/

/-- All values take up the same number of bytes. -/
def HasFixedSize (codec : Codec α) : Prop :=
  ∀ value, (codec.write value).length = codec.minSize

theorem hasFixedSize_uint16 : uint16.HasFixedSize :=
  fun value => BigEndian.length_encode 2 value.toNat

theorem HasFixedSize.via {codec : Codec α} (h : codec.HasFixedSize) (view : β → α) (of : α → β) :
    (codec.via view of).HasFixedSize :=
  fun value => h (view value)

theorem HasFixedSize.pair {first : Codec α} {second : Codec β} (hfirst : first.HasFixedSize)
    (hsecond : second.HasFixedSize) : (first.pair second).HasFixedSize := by
  intro value
  show (first.write value.1 ++ second.write value.2).length = first.minSize + second.minSize
  rw [List.length_append, hfirst, hsecond]

theorem hasFixedSize_flags (scope : FlagScope) : (Flags.codec scope).HasFixedSize :=
  hasFixedSize_uint16.via _ _

/-- A list takes up two bytes for the count, and the same number of bytes for
each element. -/
theorem HasFixedSize.length_counted {codec : Codec α} (h : codec.HasFixedSize) (values : List α) :
    (codec.counted.write values).length = 2 + values.length * codec.minSize := by
  have helements : (values.flatMap codec.write).length = values.length * codec.minSize := by
    induction values with
    | nil => simp
    | cons value values ih =>
      rw [List.flatMap_cons, List.length_append, List.length_cons, h value, ih, Nat.succ_mul]
      omega
  show (uint16.write _ ++ values.flatMap codec.write).length = _
  rw [List.length_append, helements, hasFixedSize_uint16]
  rfl

end ClassDelta.Codec
