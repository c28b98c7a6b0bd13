import ClassDelta.Proofs.Bytes.Rewriting
import ClassDelta.Proofs.Bytes.RoundTrip

/-!
# What reading and writing again does to bytes

Two facts describe how the bytes of a value and the bytes it is written as are
related.

* `Reader.Takes` says which bytes a reader took off when it returned a value.
  Nothing in front of them and nothing behind them is touched.
* `Codec.Normalises` names a second codec that keeps the bytes as they stand.
  Each value that is read has a verbatim form with exactly the bytes it was read
  from, and writing the value rewrites these bytes: they stay the same if the
  verbatim form is canonical and cannot stay the same if it is not.

Most formats lose nothing and are their own verbatim form
(`Codec.WritesBack.normalises`); a word of flags loses its undefined bits
(`Codec.normalises_flags`).  Every way of putting codecs together keeps the
property.
-/

namespace ClassDelta

/-! ## The bytes a reader takes off -/

namespace Reader

variable {α β σ : Type}

/-- Whenever the reader returns a value, the bytes it took off spell it. -/
def Takes (reader : Reader α) (spells : Bytes → α → Prop) : Prop :=
  ∀ cursor value after, reader cursor = .ok value after →
    ∃ bytes, cursor.rest = bytes ++ after.rest ∧ spells bytes value

theorem Takes.mono {reader : Reader α} {first second : Bytes → α → Prop} (h : reader.Takes first)
    (himp : ∀ bytes value, first bytes value → second bytes value) : reader.Takes second := by
  intro cursor value after hread
  obtain ⟨bytes, hrest, hspells⟩ := h cursor value after hread
  exact ⟨bytes, hrest, himp bytes value hspells⟩

theorem takes_pure {spells : Bytes → α → Prop} {value : α} (h : spells [] value) :
    (pure value : Reader α).Takes spells := by
  intro cursor result after hread
  cases hread
  exact ⟨[], rfl, h⟩

theorem takes_throw {spells : Bytes → α → Prop} (error : ParseError) :
    (throw error : Reader α).Takes spells := by
  intro cursor value after hread
  cases hread

/-- The second reader takes its bytes off behind those of the first one. -/
theorem Takes.bind {reader : Reader α} {next : α → Reader β} {first : Bytes → α → Prop}
    {second : Bytes → β → Prop} (hreader : reader.Takes first)
    (hnext : ∀ front value, first front value →
      (next value).Takes fun back result => second (front ++ back) result) :
    (reader >>= next).Takes second := by
  intro cursor result after hread
  obtain ⟨value, between, hvalue, hresult⟩ := Stateful.bind_eq_ok hread
  obtain ⟨front, hfront, hfirst⟩ := hreader cursor value between hvalue
  obtain ⟨back, hback, hsecond⟩ := hnext front value hfirst between result after hresult
  refine ⟨front ++ back, ?_, hsecond⟩
  rw [hfront, hback, List.append_assoc]

theorem Takes.map {reader : Reader α} {first : Bytes → α → Prop} {second : Bytes → β → Prop}
    {f : α → β} (hreader : reader.Takes first)
    (h : ∀ bytes value, first bytes value → second bytes (f value)) :
    (f <$> reader).Takes second := by
  rw [map_eq_pure_bind]
  refine hreader.bind fun front value hfirst => takes_pure ?_
  rw [List.append_nil]
  exact h front value hfirst

theorem Takes.mapError {reader : Reader α} {spells : Bytes → α → Prop}
    {reword : ParseError → ParseError} (h : reader.Takes spells) :
    (reader.mapError reword).Takes spells :=
  fun cursor value after hread => h cursor value after (mapError_eq_ok hread)

theorem takes_expect (count size : Nat) : (expect count size).Takes fun bytes _ => bytes = [] := by
  intro cursor value after hread
  obtain ⟨-, rfl, -⟩ := (demands_expect count size).of_eq_ok hread
  exact ⟨[], rfl, rfl⟩

/-- The bytes taken are the bytes returned, and as many as were asked for. -/
theorem takes_take {count : Nat} (hcount : count ≤ largestRequest) :
    (take count).Takes fun bytes result => result = bytes ∧ bytes.length = count := by
  intro cursor result after hread
  obtain ⟨-, rfl, hspells⟩ := (demands_take hcount).of_eq_ok hread
  exact ⟨cursor.rest.take count, (List.take_append_drop count cursor.rest).symm, hspells⟩

theorem takes_number {width : Nat} (hwidth : width ≤ largestRequest) :
    (number width).Takes fun bytes value =>
      BigEndian.encode width value = bytes ∧ value < 256 ^ width := by
  refine (takes_take hwidth).map ?_
  rintro _ bytes ⟨rfl, hlength⟩
  rw [← hlength]
  exact ⟨BigEndian.encode_decode bytes, BigEndian.decode_lt bytes⟩

/-- Values read in a row have their bytes in a row.  The induction is on the
values still to be read; those already read stand in `before`. -/
theorem takes_repeated {reader : Reader α} {write : σ → Bytes} {meaning : σ → α}
    (hreader : reader.Takes fun bytes value => ∃ raw, write raw = bytes ∧ meaning raw = value)
    (count : Nat) (before : List σ) :
    (repeated reader count (before.map meaning)).Takes fun bytes values =>
      ∃ raws, raws.flatMap write = bytes ∧ raws.length = count ∧
        (before.reverse ++ raws).map meaning = values := by
  induction count generalizing before with
  | zero => exact takes_pure ⟨[], rfl, rfl, by simp⟩
  | succ count ih =>
    rw [repeated]
    refine hreader.bind ?_
    rintro _ _ ⟨raw, rfl, rfl⟩
    refine (ih (raw :: before)).mono ?_
    rintro _ _ ⟨raws, rfl, rfl, rfl⟩
    exact ⟨raw :: raws, List.flatMap_cons, rfl, by simp⟩

end Reader

/-! ## Codecs that lose nothing -/

namespace Codec

variable {α β σ τ : Type}

/-- Writing a value gives the bytes it was read from. -/
def WritesBack (codec : Codec α) : Prop :=
  codec.read.Takes fun bytes value => codec.write value = bytes

/-- A number as a machine word of the same width. -/
theorem writesBack_word {width : Nat} (hwidth : width ≤ Reader.largestRequest) {view : β → Nat}
    {of : Nat → β} (hview : ∀ raw, raw < 256 ^ width → view (of raw) = raw) :
    ((number width).via view of).WritesBack := by
  refine (Reader.takes_number hwidth).map ?_
  rintro _ raw ⟨rfl, hraw⟩
  show BigEndian.encode width (view (of raw)) = _
  rw [hview raw hraw]

theorem WritesBack.via {codec : Codec α} (h : codec.WritesBack) {view : β → α} {of : α → β}
    (hview : ∀ raw, view (of raw) = raw) : (codec.via view of).WritesBack := by
  refine h.map ?_
  rintro _ raw rfl
  show codec.write (view (of raw)) = _
  rw [hview]

theorem writesBack_uint8 : uint8.WritesBack :=
  writesBack_word (by decide) fun _ hraw => UInt8.toNat_ofNat_of_lt' hraw

theorem writesBack_uint16 : uint16.WritesBack :=
  writesBack_word (by decide) fun _ hraw => UInt16.toNat_ofNat_of_lt' hraw

theorem writesBack_uint32 : uint32.WritesBack :=
  writesBack_word (by decide) fun _ hraw => UInt32.toNat_ofNat_of_lt' hraw

theorem writesBack_uint64 : uint64.WritesBack :=
  writesBack_word (by decide) fun _ hraw => UInt64.toNat_ofNat_of_lt' hraw

theorem writesBack_int32 : int32.WritesBack := writesBack_uint32.via UInt32.toUInt32_toInt32

theorem writesBack_int64 : int64.WritesBack := writesBack_uint64.via UInt64.toUInt64_toInt64

theorem WritesBack.pair {first : Codec α} {second : Codec β} (hfirst : first.WritesBack)
    (hsecond : second.WritesBack) : (first.pair second).WritesBack := by
  refine hfirst.bind ?_
  rintro _ left rfl
  refine hsecond.bind ?_
  rintro _ right rfl
  refine Reader.takes_pure ?_
  rw [List.append_nil]
  rfl

theorem writesBack_version : Version.codec.WritesBack :=
  (writesBack_uint16.pair writesBack_uint16).via fun _ => rfl

/-! ## Codecs that lose something -/

/-- What is read has a verbatim form with the same bytes, and writing it rewrites
these. -/
structure Normalises (codec : Codec α) (verbatim : Codec σ) (meaning : σ → α)
    (canonical : σ → Prop) : Prop where
  takes : codec.read.Takes fun bytes value =>
    ∃ raw, verbatim.write raw = bytes ∧ meaning raw = value
  rewrites : ∀ raw, Rewrites (codec.write (meaning raw)) (verbatim.write raw) (canonical raw)

theorem WritesBack.normalises {codec : Codec α} (h : codec.WritesBack) :
    codec.Normalises codec id fun _ => True where
  takes := h.mono fun _ value hvalue => ⟨value, hvalue, rfl⟩
  rewrites _ := .of_eq rfl trivial

/-- A number takes two bytes, whatever it is. -/
theorem length_write_uint16 (left right : UInt16) :
    (uint16.write left).length = (uint16.write right).length :=
  (hasFixedSize_uint16 left).trans (hasFixedSize_uint16 right).symm

/-- A word of flags is its own verbatim form, and canonical if all of its bits
are defined. -/
theorem normalises_flags (scope : FlagScope) :
    (Flags.codec scope).Normalises uint16 Flags.ofBits fun word => word &&& scope.mask = word where
  takes := writesBack_uint16.map fun _ word hword => ⟨word, hword, rfl⟩
  rewrites word := by
    refine ⟨Nat.le_of_eq (length_write_uint16 _ _), fun heq => ?_, fun heq => congrArg uint16.write heq⟩
    exact roundTrips_uint16.write_injective trivial trivial heq

/-- Other views of the same values, verbatim or not. -/
theorem Normalises.via {codec : Codec α} {verbatim : Codec σ} {meaning : σ → α}
    {canonical : σ → Prop} (h : codec.Normalises verbatim meaning canonical) {view : β → α}
    {of : α → β} {view' : τ → σ} {of' : σ → τ} {meaning' : τ → β} {canonical' : τ → Prop}
    (hback : ∀ raw, view' (of' raw) = raw) (hof : ∀ raw, meaning' (of' raw) = of (meaning raw))
    (hview : ∀ raw, view (meaning' raw) = meaning (view' raw))
    (hcanonical : ∀ raw, canonical (view' raw) ↔ canonical' raw) :
    (codec.via view of).Normalises (verbatim.via view' of') meaning' canonical' where
  takes := by
    refine h.takes.map ?_
    rintro _ _ ⟨raw, rfl, rfl⟩
    refine ⟨of' raw, ?_, hof raw⟩
    show verbatim.write (view' (of' raw)) = _
    rw [hback]
  rewrites raw := by
    show Rewrites (codec.write (view (meaning' raw))) (verbatim.write (view' raw)) _
    rw [hview]
    exact (h.rewrites (view' raw)).congr (hcanonical raw)

theorem Normalises.pair {first : Codec α} {second : Codec β} {verbatim : Codec σ}
    {verbatim' : Codec τ} {meaning : σ → α} {meaning' : τ → β} {canonical : σ → Prop}
    {canonical' : τ → Prop} (hfirst : first.Normalises verbatim meaning canonical)
    (hsecond : second.Normalises verbatim' meaning' canonical') :
    (first.pair second).Normalises (verbatim.pair verbatim') (Prod.map meaning meaning')
      fun raw => canonical raw.1 ∧ canonical' raw.2 where
  takes := by
    refine hfirst.takes.bind ?_
    rintro _ _ ⟨left, rfl, rfl⟩
    refine hsecond.takes.bind ?_
    rintro _ _ ⟨right, rfl, rfl⟩
    refine Reader.takes_pure ⟨(left, right), ?_, rfl⟩
    rw [List.append_nil]
    rfl
  rewrites raw := (hfirst.rewrites raw.1).append (hsecond.rewrites raw.2)

/-- The count in front of a list is the number of its elements. -/
theorem Normalises.counted {codec : Codec α} {verbatim : Codec σ} {meaning : σ → α}
    {canonical : σ → Prop} (h : codec.Normalises verbatim meaning canonical) :
    codec.counted.Normalises verbatim.counted (List.map meaning)
      fun raws => ∀ raw ∈ raws, canonical raw where
  takes := by
    refine writesBack_uint16.bind ?_
    rintro _ count rfl
    refine (Reader.takes_expect _ _).bind ?_
    rintro _ _ rfl
    refine (Reader.takes_repeated h.takes count.toNat []).mono ?_
    rintro _ _ ⟨raws, rfl, hlength, rfl⟩
    refine ⟨raws, ?_, rfl⟩
    show uint16.write (UInt16.ofNat raws.length) ++ _ = _
    rw [hlength, UInt16.ofNat_toNat]
    rfl
  rewrites raws := by
    have hcount : Rewrites (uint16.write (UInt16.ofNat (raws.map meaning).length))
        (uint16.write (UInt16.ofNat raws.length)) True :=
      .of_eq (by rw [List.length_map]) trivial
    have helements := Rewrites.flatMap raws fun raw _ => h.rewrites raw
    have hall := (hcount.append helements).congr (and_iff_right trivial)
    show Rewrites (_ ++ (raws.map meaning).flatMap codec.write) _ _
    rw [List.flatMap_map]
    exact hall

theorem WritesBack.counted {codec : Codec α} (h : codec.WritesBack) : codec.counted.WritesBack := by
  refine h.normalises.counted.takes.mono ?_
  intro bytes values ⟨raws, hwrite, hmeaning⟩
  rw [← hmeaning, List.map_id]
  exact hwrite

end Codec

end ClassDelta
