import ClassDelta.Pool.Constant

/-!
# Constant pools

A `Pool` holds the entries of a class file that everything else in the file
refers to by index.  Indices start at 1, and the entries after a two-slot entry
move up by one.

`Pool.read` accepts a pool only if every reference inside of it leads to an
entry, so that later look-ups have to worry about nothing but the kind of entry
they find.
-/

namespace ClassDelta

/-- The constant pool of a class file. -/
structure Pool where
  entries : OffsetVector Constant

namespace Pool

/-- The pool without entries. -/
def empty : Pool := ⟨.startingAt 1⟩

/-- The number of entries. -/
def size (pool : Pool) : Nat := pool.entries.size

def isEmpty (pool : Pool) : Bool := pool.entries.isEmpty

/-- One more than the last slot in use, which is the count a file declares. -/
def slotCount (pool : Pool) : UInt16 := UInt16.ofNat pool.entries.next

/-- The entries, each with its index, in order. -/
def toList (pool : Pool) : List (PoolIndex × Constant) :=
  pool.entries.toList.map fun (offset, constant) => (UInt16.ofNat offset, constant)

/-- The entry at an index.  Index 0, the second slot of a wide entry and
everything past the end hold none. -/
def get? (pool : Pool) (index : PoolIndex) : Option Constant :=
  if index = 0 then none else pool.entries.find? index.toNat

/-! ## Written form -/

/-- The declared slot count, then every entry. -/
def write (pool : Pool) : Bytes :=
  Codec.uint16.write pool.slotCount ++ pool.entries.toList.flatMap fun entry => entry.2.write

/-- Read entries until `free` slots are filled. -/
def readEntries : (free : Nat) → OffsetVector Constant → Reader (OffsetVector Constant)
  | 0, entries => pure entries
  | free + 1, entries => do
    let index := UInt16.ofNat entries.next
    let constant ← Constant.read index
    if constant.slots = 2 then
      match free with
      | 0 => Constant.fail index .wideEntryOverflow
      | free + 1 => readEntries free (entries.push constant)
    else readEntries free (entries.push constant)

/-- The first entry with a reference that leads to no entry, and the first such
reference in it. -/
def danglingReference? (pool : Pool) : Option (PoolIndex × PoolIndex) :=
  pool.toList.findSome? fun (index, constant) =>
    (constant.references.find? fun target => (pool.get? target).isNone).map fun target =>
      (index, target)

/-- Read a pool, from its declared slot count on. -/
def read : Reader Pool := do
  let count ← Reader.mapError (Constant.blame 0) Codec.uint16.read
  if count = 0 then Constant.fail 0 .emptyPool
  else
    let entries ← readEntries (count.toNat - 1) empty.entries
    let pool : Pool := ⟨entries⟩
    match pool.danglingReference? with
    | some (index, target) => Constant.fail index (.indexOutOfRange target)
    | none => return pool

end Pool

end ClassDelta
