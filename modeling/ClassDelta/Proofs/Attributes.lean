import ClassDelta.Attributes
import ClassDelta.Proofs.Bytes.RoundTrip
import Mathlib.Data.List.Forall2

/-!
# Decoding and finding attributes

An attribute decodes to the value that was written into it
(`AttributeFormat.decode_write`).  In a list of attributes with names that
resolve, a format finds the first attribute with its name, and
`AttributeFormat.find_eq` says what that comes to if it is known of each
attribute what the format makes of it.
-/

namespace ClassDelta

/-! ## Codecs of attributes -/

theorem InnerClass.roundTrips_codec : codec.RoundTrips fun _ => True :=
  (Codec.roundTrips_uint16.pair (Codec.roundTrips_uint16.pair (Codec.roundTrips_uint16.pair
    (Codec.roundTrips_flags .ofInnerClass)))).via (fun _ _ => ⟨trivial, trivial, trivial, trivial⟩)
    (fun _ _ => trivial) fun _ _ => rfl

theorem InnerClass.hasFixedSize_codec : codec.HasFixedSize :=
  (Codec.hasFixedSize_uint16.pair (Codec.hasFixedSize_uint16.pair (Codec.hasFixedSize_uint16.pair
    (Codec.hasFixedSize_flags .ofInnerClass)))).via _ _

theorem EnclosingMethod.roundTrips_codec : codec.RoundTrips fun _ => True :=
  (Codec.roundTrips_uint16.pair Codec.roundTrips_uint16).via (fun _ _ => ⟨trivial, trivial⟩)
    (fun _ _ => trivial) fun _ _ => rfl

theorem EnclosingMethod.hasFixedSize_codec : codec.HasFixedSize :=
  (Codec.hasFixedSize_uint16.pair Codec.hasFixedSize_uint16).via _ _

namespace AttributeFormat

variable {α β δ : Type}

/-- What was written into an attribute is decoded from it. -/
theorem decode_write (format : AttributeFormat α) {fits : α → Prop}
    (hcodec : format.codec.RoundTrips fits) {value : α} (h : fits value) :
    format.decode (format.codec.write value) = .ok value := by
  have hread := hcodec.reads value h 0 []
  rw [List.append_nil] at hread
  have hstart : Cursor.start (format.codec.write value) = ⟨0, format.codec.write value⟩ := rfl
  simp only [decode, hstart, hread]
  rfl

/-! ## Finding attributes -/

/-- What a format makes of an attribute: either the attribute has another name,
or it decodes to what is expected of it. -/
def Recognises (format : AttributeFormat α) (pool : Pool) (holds : β → α → Prop) :
    Option β → RawAttribute → Prop
  | some expected, raw => pool.text raw.name = .ok format.name ∧
      ∃ value, format.decode raw.info = .ok value ∧ holds expected value
  | none, raw => ∃ name, pool.text raw.name = .ok name ∧ name ≠ format.name

/-- The value that is found is the one of the first attribute from which one is
expected. -/
theorem find_eq (format : AttributeFormat α) {pool : Pool} {holds : β → α → Prop}
    {select : δ → Option β} {declared : List δ} {attributes : List RawAttribute}
    (h : List.Forall₂ (fun expected => format.Recognises pool holds (select expected)) declared
      attributes) :
    ∃ found, format.find pool attributes = .ok found ∧
      Option.Rel holds (declared.findSome? select) found := by
  induction h with
  | nil => exact ⟨none, rfl, .none⟩
  | @cons expected raw declared attributes hfirst hlater ih =>
    rw [find, List.findSome?_cons]
    cases hselect : select expected with
    | none =>
      rw [hselect] at hfirst
      obtain ⟨name, hname, hne⟩ := hfirst
      obtain ⟨found, hfound, hrel⟩ := ih
      refine ⟨found, ?_, hrel⟩
      rw [hname]
      show (if name = format.name then _ else _) = _
      rw [if_neg hne]
      exact hfound
    | some value =>
      rw [hselect] at hfirst
      obtain ⟨hname, found, hdecode, hholds⟩ := hfirst
      refine ⟨some found, ?_, .some hholds⟩
      rw [hname]
      show (if format.name = format.name then _ else _) = _
      rw [if_pos rfl, hdecode]
      rfl

end AttributeFormat

end ClassDelta
