import ClassDelta.Bytes.BigEndian

/-!
# CRC-32

The checksum that zip archives keep for the contents of an entry: the remainder
of the contents, bit by bit from the lowest one, modulo a fixed polynomial.
-/

namespace ClassDelta.Crc32

/-- The polynomial with its bits in reverse order and without the highest one. -/
def polynomial : UInt32 := 0xEDB88320

/-- Take in one bit after another. -/
def shift : (bits : Nat) → UInt32 → UInt32
  | 0, remainder => remainder
  | bits + 1, remainder =>
    let shifted := remainder >>> 1
    shift bits (if remainder &&& 1 = 0 then shifted else shifted ^^^ polynomial)

/-- The checksum of a byte list. -/
def checksum (bytes : Bytes) : UInt32 :=
  let remainder := bytes.foldl (fun remainder byte => shift 8 (remainder ^^^ byte.toUInt32))
    0xFFFFFFFF
  remainder ^^^ 0xFFFFFFFF

end ClassDelta.Crc32
