import ClassDelta.ClassFile
import ClassDelta.Proofs.Bytes.Bounds

/-!
# How short a part of a class file can be

A list is turned down when its count says that it cannot fit, before any of its
elements is read.  That is no restriction as long as no element is shorter than
its codec says.

* `Reader.Advances` says that a reader takes off at least so many bytes whenever
  it returns a value.  There is one lemma for every way of putting readers
  together, and elements read in a row take off as many times that size as there
  are (`Reader.advances_repeated`).
* `ClassFile.IsPart` lists what class files are put together from, with the least
  size of each.  `ClassFile.IsPart.advances` is one case for each of them.
* `Codec.counted_read_eq_ok_iff` compares a list with one that is read without
  looking ahead.

The main statement is `ClassFile.IsPart.advances_and_counted`.
-/

namespace ClassDelta

namespace Reader

variable {α β : Type}

/-- A value that is returned has taken off at least `size` bytes. -/
def Advances (reader : Reader α) (size : Nat) : Prop :=
  ∀ cursor value after, reader cursor = .ok value after →
    ∃ width, size ≤ width ∧ width ≤ cursor.remaining ∧ after = cursor.skip width

theorem Advances.mono {reader : Reader α} {size smaller : Nat} (h : reader.Advances size)
    (hle : smaller ≤ size) : reader.Advances smaller := by
  intro cursor value after hread
  obtain ⟨width, hsize, hwidth, hafter⟩ := h cursor value after hread
  exact ⟨width, Nat.le_trans hle hsize, hwidth, hafter⟩

theorem advances_pure (value : α) : (pure value : Reader α).Advances 0 := by
  intro cursor result after hread
  cases hread
  exact ⟨0, Nat.le_refl _, Nat.zero_le _, cursor.skip_zero.symm⟩

/-- What the second reader takes off comes on top. -/
theorem Advances.bind {reader : Reader α} {next : α → Reader β} {size later : Nat}
    (h : reader.Advances size) (hnext : ∀ value, (next value).Advances later) :
    (reader >>= next).Advances (size + later) := by
  intro cursor result after hread
  obtain ⟨value, between, hvalue, hresult⟩ := Stateful.bind_eq_ok hread
  obtain ⟨first, hfirst, hfront, rfl⟩ := h cursor value between hvalue
  obtain ⟨second, hsecond, hback, rfl⟩ := hnext value _ result after hresult
  rw [Cursor.remaining_skip] at hback
  exact ⟨first + second, by omega, by omega, cursor.skip_skip first second⟩

/-- What comes behind may take off nothing. -/
theorem Advances.front {reader : Reader α} {next : α → Reader β} {size : Nat}
    (h : reader.Advances size) (hnext : ∀ value, (next value).Advances 0) :
    (reader >>= next).Advances size :=
  h.bind hnext

theorem Advances.map {reader : Reader α} {size : Nat} (h : reader.Advances size) (f : α → β) :
    (f <$> reader).Advances size := by
  rw [map_eq_pure_bind]
  exact h.front fun value => advances_pure (f value)

theorem Demands.advances {reader : Reader α} {needed width : Nat} {spells : Bytes → α → Prop}
    (h : reader.Demands needed width spells) (hwidth : width ≤ needed) :
    reader.Advances width := by
  intro cursor value after hread
  obtain ⟨henough, hafter, -⟩ := h.of_eq_ok hread
  exact ⟨width, Nat.le_refl _, Nat.le_trans hwidth henough, hafter⟩

/-- Elements in a row take off their number times their least size. -/
theorem advances_repeated {reader : Reader α} {size : Nat} (h : reader.Advances size)
    (count : Nat) (before : List α) : (repeated reader count before).Advances (count * size) := by
  induction count generalizing before with
  | zero =>
    rw [Nat.zero_mul]
    exact advances_pure before.reverse
  | succ count ih =>
    rw [Nat.succ_mul, Nat.add_comm (count * size)]
    exact h.bind fun value => ih (value :: before)

/-- A check for as many bytes as will be taken off anyway turns nothing down. -/
theorem Advances.expect_bind_eq_ok_iff {reader : Reader α} {count size : Nat}
    (h : reader.Advances (count * size)) {cursor after : Cursor} {value : α} :
    (expect count size >>= fun _ => reader) cursor = .ok value after ↔
      reader cursor = .ok value after := by
  rcases Nat.lt_or_ge cursor.remaining (min (count * size) largestRequest) with hshort | henough
  · rw [Stateful.bind_of_error ((demands_expect count size).error cursor hshort)]
    constructor
    · intro hread
      cases hread
    · intro hread
      obtain ⟨width, hsize, hwidth, -⟩ := h cursor value after hread
      omega
  · obtain ⟨_, hexpect, -⟩ := (demands_expect count size).ok cursor henough
    rw [Stateful.bind_of_ok hexpect, Cursor.skip_zero]

end Reader

/-! ## Codecs -/

namespace Codec

variable {α β : Type}

theorem advances_uint8 : uint8.read.Advances 1 := demands_uint8.advances (Nat.le_refl _)

theorem advances_uint16 : uint16.read.Advances 2 := demands_uint16.advances (Nat.le_refl _)

theorem advances_uint32 : uint32.read.Advances 4 := demands_uint32.advances (Nat.le_refl _)

theorem advances_pair {first : Codec α} {second : Codec β} {size size' : Nat}
    (hfirst : first.read.Advances size) (hsecond : second.read.Advances size') :
    (first.pair second).read.Advances (size + size') :=
  hfirst.bind fun left => hsecond.bind fun right => Reader.advances_pure (left, right)

theorem advances_flags (scope : FlagScope) : (Flags.codec scope).read.Advances 2 :=
  advances_uint16.map _

/-- The count alone takes up two bytes. -/
theorem advances_counted {codec : Codec α} {size : Nat} (h : codec.read.Advances size) :
    codec.counted.read.Advances 2 := by
  refine advances_uint16.front fun count => ?_
  have hexpect := (Reader.demands_expect count.toNat codec.minSize).advances (Nat.zero_le _)
  refine hexpect.front fun _ => ?_
  exact (Reader.advances_repeated h count.toNat []).mono (Nat.zero_le _)

/-- Read a list behind its length, without a look at what is left. -/
def readUnchecked (codec : Codec α) : Reader (List α) := do
  let count ← uint16.read
  Reader.repeated codec.read count.toNat []

/-- Where no value is shorter than the codec says, the check in front of a list
turns down nothing that could be read. -/
theorem counted_read_eq_ok_iff {codec : Codec α} (h : codec.read.Advances codec.minSize)
    (cursor : Cursor) (values : List α) (after : Cursor) :
    codec.counted.read cursor = .ok values after ↔
      codec.readUnchecked cursor = .ok values after := by
  show (uint16.read >>= fun count => Reader.expect count.toNat codec.minSize >>= fun _ =>
    Reader.repeated codec.read count.toNat []) cursor = _ ↔ _
  unfold readUnchecked
  cases hcount : uint16.read cursor with
  | ok count between =>
    rw [Stateful.bind_of_ok hcount, Stateful.bind_of_ok hcount]
    exact (Reader.advances_repeated h count.toNat []).expect_bind_eq_ok_iff
  | error error between =>
    rw [Stateful.bind_of_error hcount, Stateful.bind_of_error hcount]

end Codec

/-! ## Parts of class files -/

theorem RawAttribute.advances_codec : RawAttribute.codec.read.Advances 6 := by
  show RawAttribute.codec.read.Advances (2 + 4)
  refine Codec.advances_uint16.bind fun name => Codec.advances_uint32.front fun length => ?_
  have hlength := Reader.le_largestRequest length.toNat_lt
  have hinfo := (Reader.demands_take hlength).advances (Nat.le_refl _)
  exact (hinfo.mono (Nat.zero_le _)).front fun info =>
    Reader.advances_pure (RawAttribute.mk name info)

theorem RawMember.advances_codec (scope : FlagScope) : (RawMember.codec scope).read.Advances 8 :=
  (Codec.advances_pair (Codec.advances_flags scope) <|
    Codec.advances_pair Codec.advances_uint16 <|
      Codec.advances_pair Codec.advances_uint16 <|
        Codec.advances_counted RawAttribute.advances_codec).map _

namespace ClassFile

/-- The codecs of the parts that class files and their attributes are put together
from, each with the least number of bytes that the part takes up. -/
inductive IsPart : {α : Type} → Codec α → (leastSize : Nat) → Prop
  | byte : IsPart Codec.uint8 1
  /-- Indices into the pool are words, too. -/
  | word : IsPart Codec.uint16 2
  | doubleWord : IsPart Codec.uint32 4
  | flags (scope : FlagScope) : IsPart (Flags.codec scope) 2
  | version : IsPart Version.codec 4
  | rawAttribute : IsPart RawAttribute.codec 6
  | innerClass : IsPart InnerClass.codec 8
  | enclosingMethod : IsPart EnclosingMethod.codec 4
  | field : IsPart (RawMember.codec .ofField) 8
  | method : IsPart (RawMember.codec .ofMethod) 8
  /-- Attributes that say something by being there have no contents. -/
  | marker : IsPart Codec.unit 0
  | counted {α : Type} {codec : Codec α} {leastSize : Nat} (h : IsPart codec leastSize) :
    IsPart codec.counted 2

namespace IsPart

variable {α : Type} {codec : Codec α} {leastSize : Nat}

/-- The size that a codec names is the least one. -/
theorem minSize_eq (h : IsPart codec leastSize) : codec.minSize = leastSize := by
  cases h <;> rfl

/-- No part is read from fewer bytes than that. -/
theorem advances (h : IsPart codec leastSize) : codec.read.Advances leastSize := by
  induction h with
  | byte => exact Codec.advances_uint8
  | word => exact Codec.advances_uint16
  | doubleWord => exact Codec.advances_uint32
  | flags scope => exact Codec.advances_flags scope
  | version => exact (Codec.advances_pair Codec.advances_uint16 Codec.advances_uint16).map _
  | rawAttribute => exact RawAttribute.advances_codec
  | innerClass =>
    exact (Codec.advances_pair Codec.advances_uint16 <|
      Codec.advances_pair Codec.advances_uint16 <|
        Codec.advances_pair Codec.advances_uint16 (Codec.advances_flags _)).map _
  | enclosingMethod =>
    exact (Codec.advances_pair Codec.advances_uint16 Codec.advances_uint16).map _
  | field => exact RawMember.advances_codec _
  | method => exact RawMember.advances_codec _
  | marker => exact Reader.advances_pure ()
  | counted _ ih => exact Codec.advances_counted ih

/-- The size that the codec of a part names is the least one, and every value that
is read takes off at least that many bytes.  So a list of such parts, which first
checks whether its elements can fit, is read exactly when it is without that
check, with the same elements and up to the same position. -/
theorem advances_and_counted (h : IsPart codec leastSize) :
    codec.minSize = leastSize ∧
    (∀ cursor value after, codec.read cursor = .ok value after →
      ∃ width, leastSize ≤ width ∧ width ≤ cursor.remaining ∧ after = cursor.skip width) ∧
    ∀ cursor values after, codec.counted.read cursor = .ok values after ↔
      codec.readUnchecked cursor = .ok values after := by
  refine ⟨h.minSize_eq, h.advances, fun cursor values after => ?_⟩
  refine Codec.counted_read_eq_ok_iff ?_ cursor values after
  rw [h.minSize_eq]
  exact h.advances

/-- The bytes of a list of one public method, which end where the method does. -/
def lastMethodSample : Bytes := [0, 1, 0, 1, 0, 5, 0, 6, 0, 0]

theorem advances_and_counted_lastMethod :
    IsPart (RawMember.codec .ofMethod) 8 ∧
    (∃ width, 8 ≤ width ∧ width ≤ 8 ∧
      (⟨10, []⟩ : Cursor) = Cursor.skip ⟨2, lastMethodSample.drop 2⟩ width) ∧
    (RawMember.codec .ofMethod).counted.read (.start lastMethodSample) =
      .ok [⟨.ofBits 1, 5, 6, []⟩] ⟨10, []⟩ ∧
    (RawMember.codec .ofMethod).readUnchecked (.start lastMethodSample) =
      .ok [⟨.ofBits 1, 5, 6, []⟩] ⟨10, []⟩ := by
  obtain ⟨-, hadvances, hcounted⟩ := IsPart.method.advances_and_counted
  have hmethod : (RawMember.codec .ofMethod).read ⟨2, lastMethodSample.drop 2⟩ =
      .ok ⟨.ofBits 1, 5, 6, []⟩ ⟨10, []⟩ := by rfl
  have hlist : (RawMember.codec .ofMethod).counted.read (.start lastMethodSample) =
      .ok [⟨.ofBits 1, 5, 6, []⟩] ⟨10, []⟩ := by rfl
  exact ⟨.method, hadvances _ _ _ hmethod, hlist, (hcounted _ _ _).1 hlist⟩

end IsPart

end ClassFile

end ClassDelta
