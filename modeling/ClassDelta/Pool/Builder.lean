import ClassDelta.Pool.Basic

/-!
# Building constant pools

A `PoolBuilder` adds entries at the end of a pool and never changes one.
Interning an entry that was interned before returns the index it got then;
`push` adds an entry no matter what is there already and is not remembered.

The next free index is kept in 16 bits.  An entry whose slots would lead past
the largest index is refused with `PoolOverflow`; whatever was added on the way
to it stays.
-/

namespace ClassDelta

/-- A pool under construction. -/
structure PoolBuilder where
  pool : Pool
  /-- The interned entries and their indices, the latest first.  Texts, classes,
  strings, pairs of a name and a descriptor, integers and longs are interned
  apart, each under what is in the entry.  As entries of different kinds are never
  equal, one list under the whole entry stands for these six maps. -/
  interned : List (Constant × PoolIndex)

/-- An entry that found no room. -/
structure PoolOverflow where
  offset : Nat
  constant : Constant
deriving DecidableEq

namespace PoolOverflow

def message (overflow : PoolOverflow) : String :=
  "constant pool overflow at #" ++ overflow.offset.repr ++ " while adding a " ++
    overflow.constant.kind.name ++ " entry"

end PoolOverflow

/-- A step that may add entries to a pool under construction. -/
abbrev Building := EStateM PoolOverflow PoolBuilder

namespace PoolBuilder

/-- Nothing has been added yet. -/
def fresh : PoolBuilder := ⟨.empty, []⟩

/-- The largest index that 16 bits can hold. -/
def largestIndex : Nat := 65535

/-- Add an entry at the next free index, of which 16 bits are kept.  The index
behind the entry has to be one of 16 bits as well. -/
def push (constant : Constant) : Building PoolIndex := fun builder =>
  let offset := builder.pool.slotCount
  if offset.toNat + constant.slots ≤ largestIndex then
    .ok offset { builder with pool := ⟨builder.pool.entries.push constant⟩ }
  else .error ⟨offset.toNat, constant⟩ builder

/-- The index of an entry, which is added unless it was interned before. -/
def intern (constant : Constant) : Building PoolIndex := do
  match (← get).interned.lookup constant with
  | some index => return index
  | none =>
    let index ← push constant
    modify fun builder => { builder with interned := (constant, index) :: builder.interned }
    return index

/-! ## Interning by meaning -/

def text (text : String) : Building PoolIndex := intern (.utf8 text)

def className (name : String) : Building PoolIndex := do
  intern (.named .className (← PoolBuilder.text name))

def string (value : String) : Building PoolIndex := do
  intern (.named .string (← PoolBuilder.text value))

def nameAndType (name descriptor : String) : Building PoolIndex := do
  let name ← text name
  let descriptor ← text descriptor
  intern (.nameAndType name descriptor)

def integer (value : Int32) : Building PoolIndex := intern (.integer value)

def long (value : Int64) : Building PoolIndex := intern (.long value)

end PoolBuilder

end ClassDelta
