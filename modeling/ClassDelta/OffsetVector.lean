/-!
# Vectors indexed by offset

An `OffsetVector` holds elements of different widths.  An element is found by
its offset, which is where the vector starts plus the widths of the elements in
front of it; offsets in the middle of a wide element find nothing.

* `push` adds an element at the next free offset, and `place` also returns this
  offset.
* `find` looks an offset up by bisection and says where it falls when no
  element starts there.
-/

namespace ClassDelta

/-- Elements that take up a number of offsets. -/
class Width (α : Type) where
  width : α → Nat

/-- A list of elements, each with the offset it starts at. -/
structure OffsetVector (α : Type) where
  entries : Array (Nat × α)
  /-- The offset the next element will get. -/
  next : Nat

namespace OffsetVector

variable {α : Type}

/-- What an offset leads to. -/
inductive Lookup (α : Type)
  /-- An element starts there; it has this many elements in front of it. -/
  | found (index : Nat) (value : α)
  /-- No element starts there; this many elements start before it. -/
  | gap (before : Nat)
  /-- The offset is at or past the end. -/
  | beyond
deriving DecidableEq

/-- The vector without elements, whose first one will be at `offset`. -/
def startingAt (offset : Nat) : OffsetVector α := ⟨#[], offset⟩

/-- The number of elements. -/
def size (vector : OffsetVector α) : Nat := vector.entries.size

def isEmpty (vector : OffsetVector α) : Bool := vector.entries.isEmpty

/-- The offsets and elements, in order. -/
def toList (vector : OffsetVector α) : List (Nat × α) := vector.entries.toList

/-- Add an element at the end. -/
def push [Width α] (vector : OffsetVector α) (value : α) : OffsetVector α :=
  ⟨vector.entries.push (vector.next, value), vector.next + Width.width value⟩

/-- Add an element at the end and return the offset it starts at. -/
def place [Width α] (value : α) : StateM (OffsetVector α) Nat := fun vector =>
  (vector.next, vector.push value)

/-! ## Finding elements -/

/-- The first position in `[low, high)` whose element starts after `offset`, or
`high` if none does.  Each round halves the interval. -/
def bisect (entries : Array (Nat × α)) (offset : Nat) : (rounds low high : Nat) → Nat
  | 0, low, _ => low
  | rounds + 1, low, high =>
    if low < high then
      let middle := low + (high - low) / 2
      match entries[middle]? with
      | some (start, _) =>
        if start ≤ offset then bisect entries offset rounds (middle + 1) high
        else bisect entries offset rounds low middle
      | none => low
    else low

/-- How many elements start at `offset` or before it. -/
def countUpTo (vector : OffsetVector α) (offset : Nat) : Nat :=
  bisect vector.entries offset (vector.size.log2 + 1) 0 vector.size

/-- What is at `offset`.  Of several elements that start there, which only those
without a width leave room for, it is the last one. -/
def find (vector : OffsetVector α) (offset : Nat) : Lookup α :=
  let count := vector.countUpTo offset
  let nothing := if count = vector.size ∧ vector.next ≤ offset then .beyond else .gap count
  match count with
  | 0 => nothing
  | last + 1 =>
    match vector.entries[last]? with
    | some (start, value) => if start = offset then .found last value else nothing
    | none => nothing

/-- The element that starts at `offset`. -/
def find? (vector : OffsetVector α) (offset : Nat) : Option α :=
  match vector.find offset with
  | .found _ value => some value
  | .gap _ | .beyond => none

/-! ## Comparing and showing -/

/-- The same elements at the same offsets. -/
def sameEntries [BEq α] (left right : OffsetVector α) : Bool :=
  left.toList == right.toList

/-- An element behind its offset, as in `#1 = x`. -/
def entryText (element : α → String) (entry : Nat × α) : String :=
  "#" ++ entry.1.repr ++ " = " ++ element entry.2

/-- All elements on one line. -/
def text (element : α → String) (vector : OffsetVector α) : String :=
  "[" ++ ", ".intercalate (vector.toList.map (entryText element)) ++ "]"

/-- Each element on a line of its own. -/
def textLines (element : α → String) (vector : OffsetVector α) : String :=
  if vector.isEmpty then "[]"
  else
    let line entry := "    " ++ entryText element entry ++ ",\n"
    "[\n" ++ String.join (vector.toList.map line) ++ "]"

end OffsetVector

end ClassDelta
