import ClassDelta.Bytes.BigEndian
import ClassDelta.ParseError

/-!
# Bounds-checked reading

A `Cursor` is what is left of a byte list together with how much of it has been
read.  A `Reader` moves a cursor forward or fails; a failure leaves the cursor
where the part that failed began.

Every read first asks `Reader.expect` whether the input is long enough, so a
read past the end is the error `truncated`, which says where the read started,
how many bytes it wanted and how many there were.
-/

namespace ClassDelta

/-- A position in a byte list, and the bytes from there on. -/
structure Cursor where
  position : Nat
  rest : Bytes
deriving DecidableEq

namespace Cursor

/-- The cursor in front of all bytes. -/
def start (bytes : Bytes) : Cursor := ⟨0, bytes⟩

/-- How many bytes are left. -/
def remaining (cursor : Cursor) : Nat := cursor.rest.length

/-- Every byte has been read. -/
def atEnd (cursor : Cursor) : Bool := cursor.rest.isEmpty

end Cursor

/-- Does the list have at least that many elements?  Unlike a comparison with
the length, this walks no further than it has to. -/
def holdsAtLeast {α : Type} : Nat → List α → Bool
  | 0, _ => true
  | _ + 1, [] => false
  | count + 1, _ :: rest => holdsAtLeast count rest

@[simp] theorem holdsAtLeast_eq {α : Type} (count : Nat) (list : List α) :
    holdsAtLeast count list = decide (count ≤ list.length) := by
  induction count generalizing list with
  | zero => simp [holdsAtLeast]
  | succ count ih => cases list <;> simp [holdsAtLeast, ih]

/-- A computation that reads from a cursor and may fail. -/
abbrev Reader := EStateM ParseError Cursor

namespace Reader

/-- The largest size a request can have; a larger product counts as this one. -/
def largestRequest : Nat := UInt64.size - 1

/-- Check that `count` values of at least `size` bytes each can still follow. -/
def expect (count size : Nat) : Reader Unit := fun cursor =>
  let needed := min (count * size) largestRequest
  if holdsAtLeast needed cursor.rest then .ok () cursor
  else .error (.truncated cursor.position needed cursor.remaining) cursor

/-- The next `count` bytes. -/
def take (count : Nat) : Reader Bytes := do
  expect count 1
  modifyGet fun cursor =>
    (cursor.rest.take count, ⟨cursor.position + count, cursor.rest.drop count⟩)

/-- The big-endian number in the next `width` bytes. -/
def number (width : Nat) : Reader Nat := do
  return BigEndian.decode (← take width)

/-- The same reader with its errors reworded. -/
def mapError {α : Type} (reword : ParseError → ParseError) (reader : Reader α) : Reader α :=
  fun cursor =>
    match reader cursor with
    | .ok value cursor => .ok value cursor
    | .error error cursor => .error (reword error) cursor

/-- `count` values in a row, in front of those read before (last one first). -/
def repeated {α : Type} (reader : Reader α) : (count : Nat) → List α → Reader (List α)
  | 0, before => pure before.reverse
  | count + 1, before => do
    let value ← reader
    repeated reader count (value :: before)

/-- Read from the start of a byte list, keeping only the value. -/
def run {α : Type} (reader : Reader α) (bytes : Bytes) : Except ParseError α :=
  match reader (Cursor.start bytes) with
  | .ok value _ => .ok value
  | .error error _ => .error error

end Reader

end ClassDelta
