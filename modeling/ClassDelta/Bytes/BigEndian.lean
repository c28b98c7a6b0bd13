/-!
# Big-endian integers

Class files store every multi-byte number with its most significant byte
first.  `BigEndian.encode` writes the low bytes of a number and
`BigEndian.decode` reads a byte list as a number.
-/

namespace ClassDelta

/-- The contents of a file or of a part of one. -/
abbrev Bytes := List UInt8

namespace BigEndian

/-- The low `width` bytes of a number, the most significant one first. -/
def encode : (width : Nat) → Nat → Bytes
  | 0, _ => []
  | width + 1, number => UInt8.ofNat (number >>> (8 * width)) :: encode width number

/-- The number a byte list spells, its first byte being the most significant. -/
def decode (bytes : Bytes) : Nat :=
  bytes.foldl (fun number byte => number * 256 + byte.toNat) 0

end BigEndian

end ClassDelta
