import ClassDelta.Bytes.BigEndian
import ClassDelta.Zip.Huffman

/-!
# Deflated data

Deflated data is a sequence of blocks, read bit by bit from the lowest bit of
each byte.  A block holds plain bytes, or symbols in two Huffman codes: bytes,
and references that repeat bytes written before.

`inflate` gives back the bytes that were written.  Input that ends before the
last block does is an error, and so is input that makes no sense; what follows
the last block is ignored.
-/

namespace ClassDelta.Inflate

/-- Why reading stopped. -/
inductive Stop
  | endOfInput
  | corrupt
deriving DecidableEq

/-- The bits left to read, and the bytes written. -/
structure State where
  bits : List Bool
  output : Array UInt8

abbrev Inflating := EStateM Stop State

/-! ## Bits -/

/-- The bits of a byte, the lowest one first. -/
def byteBits (byte : UInt8) : List Bool :=
  (List.range 8).map fun position => byte.toNat.testBit position

/-- The next bit. -/
def bit : Inflating Bool := fun state =>
  match state.bits with
  | [] => .error .endOfInput state
  | bit :: rest => .ok bit { state with bits := rest }

/-- The number in the next bits, the lowest one first. -/
def number : (bits : Nat) → Inflating Nat
  | 0 => pure 0
  | bits + 1 => do
    let low ← bit
    let high ← number bits
    return low.toNat + 2 * high

/-- Skip the bits up to the next whole byte. -/
def skipToByte : Inflating Unit :=
  modify fun state => { state with bits := state.bits.drop (state.bits.length % 8) }

/-- Write a byte. -/
def emit (byte : UInt8) : Inflating Unit :=
  modify fun state => { state with output := state.output.push byte }

/-- Repeat bytes from `distance` bytes back.  What lies in front of the first
byte counts as zeros. -/
def copy (distance : Nat) : (count : Nat) → Inflating Unit
  | 0 => pure ()
  | count + 1 => do
    modify fun state =>
      let size := state.output.size
      let byte := if distance ≤ size then state.output.getD (size - distance) 0 else 0
      { state with output := state.output.push byte }
    copy distance count

/-! ## Symbols -/

/-- Follow a word through the numbers of words of each length.  A word that is
none of the code is found out when no word of the code is longer. -/
def symbolFrom (symbols : Array Nat) (word : HuffmanCode.PartialWord) :
    (counts : List Nat) → Inflating Nat
  | [] => throw .corrupt
  | count :: longer => do
    match word.step count (← bit) with
    | .inl before => return ← (symbols[before]?).elim (throw .corrupt) pure
    | .inr word => symbolFrom symbols word longer

/-- The symbol of the next word. -/
def symbol (code : HuffmanCode) : Inflating Nat :=
  symbolFrom code.symbols .start code.counts

/-- The smallest length and the number of further bits for each length symbol. -/
def lengthTable : Array (Nat × Nat) := #[
  (3, 0), (4, 0), (5, 0), (6, 0), (7, 0), (8, 0), (9, 0), (10, 0), (11, 1), (13, 1), (15, 1),
  (17, 1), (19, 2), (23, 2), (27, 2), (31, 2), (35, 3), (43, 3), (51, 3), (59, 3), (67, 4),
  (83, 4), (99, 4), (115, 4), (131, 5), (163, 5), (195, 5), (227, 5), (258, 0)]

/-- The smallest distance and the number of further bits for each distance
symbol. -/
def distanceTable : Array (Nat × Nat) := #[
  (1, 0), (2, 0), (3, 0), (4, 0), (5, 1), (7, 1), (9, 2), (13, 2), (17, 3), (25, 3), (33, 4),
  (49, 4), (65, 5), (97, 5), (129, 6), (193, 6), (257, 7), (385, 7), (513, 8), (769, 8),
  (1025, 9), (1537, 9), (2049, 10), (3073, 10), (4097, 11), (6145, 11), (8193, 12),
  (12289, 12), (16385, 13), (24577, 13)]

/-- The value of a symbol in such a table. -/
def tableValue (table : Array (Nat × Nat)) (symbol : Nat) : Inflating Nat :=
  match table[symbol]? with
  | some (smallest, bits) => do return smallest + (← number bits)
  | none => throw .corrupt

/-- Symbols up to the end of a block.  Every symbol takes a bit, so the number
of bits is enough fuel. -/
def symbols (literals distances : HuffmanCode) : (fuel : Nat) → Inflating Unit
  | 0 => throw .endOfInput
  | fuel + 1 => do
    let next ← symbol literals
    if next < 256 then
      emit (UInt8.ofNat next)
      symbols literals distances fuel
    else if next = 256 then return ()
    else
      let length ← tableValue lengthTable (next - 257)
      let distance ← tableValue distanceTable (← symbol distances)
      copy distance length
      symbols literals distances fuel

/-! ## Blocks -/

/-- Copy plain bytes to the output. -/
def plainBytes : (count : Nat) → Inflating Unit
  | 0 => pure ()
  | count + 1 => do
    emit (UInt8.ofNat (← number 8))
    plainBytes count

/-- A block of plain bytes: their number, the complement of it, and the bytes. -/
def plainBlock : Inflating Unit := do
  skipToByte
  let count ← number 16
  let complement ← number 16
  if count + complement = 0xFFFF then plainBytes count else throw .corrupt

/-- The code for bytes and lengths of a block that brings no codes of its own. -/
def fixedLiterals : HuffmanCode :=
  .ofLengths (List.replicate 144 8 ++ List.replicate 112 9 ++ List.replicate 24 7 ++
    List.replicate 8 8)

/-- The code for distances of a block that brings no codes of its own. -/
def fixedDistances : HuffmanCode := .ofLengths (List.replicate 32 5)

/-- The order in which the word lengths of the code for word lengths are given. -/
def lengthOrder : List Nat := [16, 17, 18, 0, 8, 7, 9, 6, 10, 5, 11, 4, 12, 3, 13, 2, 14, 1, 15]

/-- A number for each of a list of places. -/
def numbersFor (bits : Nat) : List Nat → Inflating (List (Nat × Nat))
  | [] => pure []
  | place :: later => do
    let value ← number bits
    return (place, value) :: (← numbersFor bits later)

/-- Word lengths, in front of which the given ones were read already (last one
first), until there are `total`.  Symbols from 16 on repeat the last length or
stand for a run of zeros; a run must not go past the end. -/
def wordLengths (code : HuffmanCode) (total : Nat) :
    (fuel : Nat) → List Nat → Inflating (List Nat)
  | 0, before => if before.length = total then return before.reverse else throw .corrupt
  | fuel + 1, before => do
    if before.length = total then return before.reverse
    else if total < before.length then throw .corrupt
    else
      let next ← symbol code
      if next < 16 then wordLengths code total fuel (next :: before)
      else if next = 16 then
        match before with
        | [] => throw .corrupt
        | last :: _ =>
          let count ← number 2
          wordLengths code total fuel (List.replicate (3 + count) last ++ before)
      else
        let count ← if next = 17 then (3 + ·) <$> number 3 else (11 + ·) <$> number 7
        wordLengths code total fuel (List.replicate count 0 ++ before)

/-- The code with the given word lengths, if it has a property. -/
def codeWith (property : HuffmanCode → Bool) (lengths : List Nat) : Inflating HuffmanCode :=
  let code := HuffmanCode.ofLengths lengths
  if property code then pure code else throw .corrupt

/-- A code for the contents of a block.  A block may do with one symbol, or with
none, which is the only use of an incomplete code. -/
def contentsCode : (lengths : List Nat) → Inflating HuffmanCode :=
  codeWith fun code => code.isComplete || code.isTrivial

/-- The codes that a block brings along. -/
def blockCodes : Inflating (HuffmanCode × HuffmanCode) := do
  let literalCount := 257 + (← number 5)
  let distanceCount := 1 + (← number 5)
  let lengthCount := 4 + (← number 4)
  if 286 < literalCount || 30 < distanceCount then throw .corrupt
  else
    let given ← numbersFor 3 (lengthOrder.take lengthCount)
    let lengths := (List.range 19).map fun place => (given.lookup place).getD 0
    let code ← codeWith HuffmanCode.isComplete lengths
    let total := literalCount + distanceCount
    let lengths ← wordLengths code total total []
    let literals ← contentsCode (lengths.take literalCount)
    let distances ← contentsCode (lengths.drop literalCount)
    return (literals, distances)

/-- One block; the result tells whether it is the last one. -/
def block (fuel : Nat) : Inflating Bool := do
  let last ← bit
  let form ← number 2
  if form = 0 then plainBlock
  else if form = 1 then symbols fixedLiterals fixedDistances fuel
  else if form = 2 then
    let (literals, distances) ← blockCodes
    symbols literals distances fuel
  else throw .corrupt
  return last

/-- Blocks up to the last one. -/
def blocks (symbolFuel : Nat) : (fuel : Nat) → Inflating Unit
  | 0 => throw .endOfInput
  | fuel + 1 => do
    let last ← block symbolFuel
    if last then return () else blocks symbolFuel fuel

/-- The bytes that were deflated, or why reading stopped before the end of the
last block. -/
def inflate (bytes : Bytes) : Except Stop Bytes :=
  let bits := bytes.flatMap byteBits
  match blocks (bits.length + 1) (bits.length + 1) ⟨bits, #[]⟩ with
  | .ok _ state => .ok state.output.toList
  | .error stop _ => .error stop

end ClassDelta.Inflate
