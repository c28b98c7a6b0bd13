import ClassDelta.Bytes.Codec
import ClassDelta.Proofs.Bytes.Reading
import Mathlib.Data.Nat.Digits.Defs

/-!
# Where a cursor can be

A `CursorRequest` is one thing that a cursor can be asked for, and `Cursor.after`
is the cursor after a history of requests.  A request that fails counts as well,
as reading may go on behind it.

* All requests ask for bytes first, so `Reader.Demands` says all that they do
  (`CursorRequest.demands_perform`).  Numbers are the values of their bytes as
  digits (`BigEndian.value`), and signed ones are in two's complement.
* `Cursor.IsIn` ties a cursor to the whole input: its position is not behind the
  end, and what is left is what stands there.  One request keeps this
  (`Cursor.IsIn.next`), and so does any history of them (`Cursor.IsIn.after`).

The main statement is `Cursor.isIn_and_goes_after`.
-/

namespace ClassDelta

/-! ## The weights of bytes -/

namespace BigEndian

/-- The bytes as digits to the base 256, of which the last one has the weight 1. -/
def value (bytes : Bytes) : Nat := Nat.ofDigits 256 (bytes.reverse.map UInt8.toNat)

theorem decode_eq_value (bytes : Bytes) : decode bytes = value bytes := by
  unfold value
  induction bytes with
  | nil => rfl
  | cons byte rest ih =>
    rw [decode_cons, List.reverse_cons, List.map_append, Nat.ofDigits_append, List.length_map,
      List.length_reverse, List.map_singleton, Nat.ofDigits_singleton, ← ih, Nat.add_comm,
      Nat.mul_comm]

end BigEndian

/-! ## Cursors in a byte list -/

namespace Cursor

variable {bytes : Bytes} {cursor : Cursor}

/-- The cursor is not behind the end of the bytes, and what is left is what
stands at its position. -/
structure IsIn (bytes : Bytes) (cursor : Cursor) : Prop where
  position_le : cursor.position ≤ bytes.length
  rest_eq : cursor.rest = bytes.drop cursor.position

theorem isIn_start (bytes : Bytes) : (start bytes).IsIn bytes :=
  ⟨Nat.zero_le _, rfl⟩

theorem IsIn.remaining_eq (h : cursor.IsIn bytes) :
    cursor.remaining = bytes.length - cursor.position := by
  rw [remaining, h.rest_eq, List.length_drop]

/-- To skip bytes is to go to their end. -/
theorem IsIn.skip_eq (h : cursor.IsIn bytes) (width : Nat) :
    cursor.skip width =
      ⟨cursor.position + width, bytes.drop (cursor.position + width)⟩ := by
  rw [skip, h.rest_eq, List.drop_drop]

end Cursor

/-! ## Numbers and words -/

namespace Reader

theorem demands_number {width : Nat} (hwidth : width ≤ largestRequest) :
    (number width).Demands width width fun bytes value =>
      value = BigEndian.value bytes ∧ value < 256 ^ width := by
  refine (demands_take hwidth).map ?_
  intro bytes taken hspells
  obtain ⟨rfl, hlength⟩ := hspells
  rw [BigEndian.decode_eq_value]
  refine ⟨rfl, ?_⟩
  rw [← BigEndian.decode_eq_value, ← hlength]
  exact BigEndian.decode_lt taken

end Reader

namespace Codec

/-- A word says which number its bytes are. -/
theorem demands_word {β : Type} {width : Nat} (hwidth : width ≤ Reader.largestRequest)
    {view : β → Nat} {of : Nat → β} (hview : ∀ raw, raw < 256 ^ width → view (of raw) = raw) :
    ((number width).via view of).read.Demands width width fun bytes word =>
      view word = BigEndian.value bytes := by
  refine (Reader.demands_number hwidth).map ?_
  intro bytes raw hspells
  obtain ⟨rfl, hlt⟩ := hspells
  exact hview _ hlt

theorem demands_uint8 : uint8.read.Demands 1 1 fun bytes word =>
    word.toNat = BigEndian.value bytes :=
  demands_word (by decide) fun _ hraw => UInt8.toNat_ofNat_of_lt' hraw

theorem demands_uint16 : uint16.read.Demands 2 2 fun bytes word =>
    word.toNat = BigEndian.value bytes :=
  demands_word (by decide) fun _ hraw => UInt16.toNat_ofNat_of_lt' hraw

theorem demands_uint32 : uint32.read.Demands 4 4 fun bytes word =>
    word.toNat = BigEndian.value bytes :=
  demands_word (by decide) fun _ hraw => UInt32.toNat_ofNat_of_lt' hraw

theorem demands_uint64 : uint64.read.Demands 8 8 fun bytes word =>
    word.toNat = BigEndian.value bytes :=
  demands_word (by decide) fun _ hraw => UInt64.toNat_ofNat_of_lt' hraw

theorem demands_int32 : int32.read.Demands 4 4 fun bytes word =>
    word.toInt = (BigEndian.value bytes : Int).bmod (2 ^ 32) := by
  refine demands_uint32.map ?_
  intro bytes word hword
  rw [← hword]
  exact BitVec.toInt_eq_toNat_bmod word.toBitVec

theorem demands_int64 : int64.read.Demands 8 8 fun bytes word =>
    word.toInt = (BigEndian.value bytes : Int).bmod (2 ^ 64) := by
  refine demands_uint64.map ?_
  intro bytes word hword
  rw [← hword]
  exact BitVec.toInt_eq_toNat_bmod word.toBitVec

end Codec

/-! ## Requests -/

/-- What a cursor can be asked for.  Sizes are 64-bit words. -/
inductive CursorRequest
  | uint8
  | uint16
  | uint32
  | int32
  | int64
  | float32
  | float64
  | bytes (count : UInt64)
  /-- A check whether that many values of at least that size can follow. -/
  | expect (count size : UInt64)
deriving DecidableEq

namespace CursorRequest

/-- What is returned.  Floating-point numbers are returned as their bits. -/
def Answer : CursorRequest → Type
  | uint8 => UInt8
  | uint16 => UInt16
  | uint32 | float32 => UInt32
  | int32 => Int32
  | int64 => Int64
  | float64 => UInt64
  | bytes _ => Bytes
  | expect _ _ => Unit

/-- Make the request. -/
def perform : (request : CursorRequest) → Reader request.Answer
  | uint8 => Codec.uint8.read
  | uint16 => Codec.uint16.read
  | uint32 | float32 => Codec.uint32.read
  | int32 => Codec.int32.read
  | int64 => Codec.int64.read
  | float64 => Codec.uint64.read
  | bytes count => Reader.take count.toNat
  | expect count size => Reader.expect count.toNat size.toNat

/-- How many bytes are taken off. -/
def width : CursorRequest → Nat
  | uint8 => 1
  | uint16 => 2
  | uint32 | int32 | float32 => 4
  | int64 | float64 => 8
  | bytes count => count.toNat
  | expect _ _ => 0

/-- How many bytes have to be there.  For a check this is the product of its two
sizes, or the largest size if the product is larger than that. -/
def needed : CursorRequest → Nat
  | expect count size => min (count.toNat * size.toNat) (2 ^ 64 - 1)
  | request => request.width

/-- The answer is what the bytes stand for.  Numbers have their most significant
byte first, and signed ones are in two's complement. -/
def Spells : (request : CursorRequest) → Bytes → request.Answer → Prop
  | uint8, spelled, (answer : UInt8) => answer.toNat = BigEndian.value spelled
  | uint16, spelled, (answer : UInt16) => answer.toNat = BigEndian.value spelled
  | uint32, spelled, (answer : UInt32) => answer.toNat = BigEndian.value spelled
  | float32, spelled, (answer : UInt32) => answer.toNat = BigEndian.value spelled
  | float64, spelled, (answer : UInt64) => answer.toNat = BigEndian.value spelled
  | int32, spelled, (answer : Int32) => answer.toInt = (BigEndian.value spelled : Int).bmod (2 ^ 32)
  | int64, spelled, (answer : Int64) => answer.toInt = (BigEndian.value spelled : Int).bmod (2 ^ 64)
  | bytes _, spelled, (answer : Bytes) => answer = spelled
  | expect _ _, _, _ => True

theorem width_le_needed (request : CursorRequest) : request.width ≤ request.needed := by
  cases request with
  | expect count size => exact Nat.zero_le _
  | _ => exact Nat.le_refl _

/-- All that a request does. -/
theorem demands_perform (request : CursorRequest) :
    request.perform.Demands request.needed request.width request.Spells := by
  cases request with
  | uint8 => exact Codec.demands_uint8
  | uint16 => exact Codec.demands_uint16
  | uint32 => exact Codec.demands_uint32
  | float32 => exact Codec.demands_uint32
  | float64 => exact Codec.demands_uint64
  | int32 => exact Codec.demands_int32
  | int64 => exact Codec.demands_int64
  | bytes count =>
    have hcount : count.toNat ≤ Reader.largestRequest := Nat.le_of_lt_succ count.toNat_lt
    exact (Reader.demands_take hcount).mono fun _ _ hspells => hspells.1
  | expect count size => exact Reader.demands_expect count.toNat size.toNat

/-- How a request goes at a cursor in some bytes.  It is answered with what the
bytes at the position spell, and the cursor goes to their end; or there are too
few, which the error says, and the cursor stays. -/
inductive Goes (bytes : Bytes) (cursor : Cursor) (request : CursorRequest) : Prop
  | answered (answer : request.Answer)
      (hperform : request.perform cursor = .ok answer
        ⟨cursor.position + request.width, bytes.drop (cursor.position + request.width)⟩)
      (henough : cursor.position + request.needed ≤ bytes.length)
      (hspells : request.Spells ((bytes.drop cursor.position).take request.width) answer)
  | tooShort
      (hperform : request.perform cursor = .error
        (.truncated cursor.position request.needed (bytes.length - cursor.position)) cursor)
      (hshort : bytes.length - cursor.position < request.needed)

theorem goes {bytes : Bytes} {cursor : Cursor} (h : cursor.IsIn bytes) (request : CursorRequest) :
    request.Goes bytes cursor := by
  have hposition := h.position_le
  have hremaining := h.remaining_eq
  rcases Nat.lt_or_ge cursor.remaining request.needed with hshort | henough
  · have hperform := request.demands_perform.error cursor hshort
    rw [hremaining] at hperform hshort
    exact .tooShort hperform hshort
  · obtain ⟨answer, hperform, hspells⟩ := request.demands_perform.ok cursor henough
    rw [h.skip_eq] at hperform
    rw [h.rest_eq] at hspells
    exact .answered answer hperform (by omega) hspells

end CursorRequest

/-! ## Histories of requests -/

namespace Cursor

/-- The cursor after a request, whether it was answered or not. -/
def next (cursor : Cursor) (request : CursorRequest) : Cursor :=
  Stateful.endState request.perform cursor

/-- The cursor after a history of requests. -/
def after (cursor : Cursor) (requests : List CursorRequest) : Cursor :=
  requests.foldl next cursor

variable {bytes : Bytes} {cursor : Cursor}

theorem after_append (cursor : Cursor) (requests later : List CursorRequest) :
    cursor.after (requests ++ later) = (cursor.after requests).after later :=
  List.foldl_append

/-- A request leads to a place in the bytes that is not before the old one. -/
theorem IsIn.next (h : cursor.IsIn bytes) (request : CursorRequest) :
    (cursor.next request).IsIn bytes ∧ cursor.position ≤ (cursor.next request).position := by
  cases request.goes h with
  | answered answer hperform henough _ =>
    have hwidth := request.width_le_needed
    rw [Cursor.next, Stateful.endState_of_ok hperform]
    exact ⟨⟨by show cursor.position + request.width ≤ _; omega, rfl⟩, Nat.le_add_right _ _⟩
  | tooShort hperform _ =>
    rw [Cursor.next, Stateful.endState_of_error hperform]
    exact ⟨h, Nat.le_refl _⟩

theorem IsIn.after (h : cursor.IsIn bytes) (requests : List CursorRequest) :
    (cursor.after requests).IsIn bytes ∧ cursor.position ≤ (cursor.after requests).position := by
  induction requests generalizing cursor with
  | nil => exact ⟨h, Nat.le_refl _⟩
  | cons request later ih =>
    obtain ⟨hnext, hfirst⟩ := h.next request
    obtain ⟨hafter, hlater⟩ := ih hnext
    exact ⟨hafter, Nat.le_trans hfirst hlater⟩

/-- After any history of requests a cursor stands in the bytes it started with,
not behind their end.  No request moves it back.  The next request returns what
the bytes at the position spell and takes exactly these off, or it says that there
are fewer than it needs and changes nothing. -/
theorem isIn_and_goes_after (bytes : Bytes) (requests : List CursorRequest) :
    let cursor := (start bytes).after requests
    cursor.IsIn bytes ∧
      cursor.remaining = bytes.length - cursor.position ∧
      (∀ later : List CursorRequest,
        cursor.position ≤ ((start bytes).after (requests ++ later)).position) ∧
      ∀ request : CursorRequest, request.Goes bytes cursor := by
  intro cursor
  have hcursor : cursor.IsIn bytes := ((isIn_start bytes).after requests).1
  refine ⟨hcursor, hcursor.remaining_eq, fun later => ?_, fun request => request.goes hcursor⟩
  rw [after_append]
  exact (hcursor.after later).2

/-- A word can be read from three bytes, and then a longer one can not. -/
example : (CursorRequest.uint32.perform ((start [0, 1, 2]).after [.uint16])) =
    .error (.truncated 2 4 1) ⟨2, [2]⟩ := rfl

end Cursor

end ClassDelta
