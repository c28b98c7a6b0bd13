/-!
# UTF-16

A character up to `U+FFFF` is one 16-bit unit; a character above it is a pair
of surrogates, units that stand for no character on their own.
-/

namespace ClassDelta.Utf16

/-- The first half of a surrogate pair. -/
def isHigh (unit : UInt16) : Bool := 0xD800 ≤ unit.toNat && unit.toNat < 0xDC00

/-- The second half of a surrogate pair. -/
def isLow (unit : UInt16) : Bool := 0xDC00 ≤ unit.toNat && unit.toNat < 0xE000

/-- The units of one character. -/
def encodeChar (char : Char) : List UInt16 :=
  let code := char.toNat
  if code < 0x10000 then [UInt16.ofNat code]
  else
    let above := code - 0x10000
    [UInt16.ofNat (0xD800 + above / 0x400), UInt16.ofNat (0xDC00 + above % 0x400)]

/-- The character above `U+FFFF` that a surrogate pair stands for. -/
def pairChar (high low : UInt16) : Char :=
  Char.ofNat (0x10000 + (high.toNat - 0xD800) * 0x400 + (low.toNat - 0xDC00))

/-- Read units as characters, in front of those read before (last one first). -/
def decodeAfter (before : List Char) : List UInt16 → Option (List Char)
  | [] => some before.reverse
  | unit :: rest =>
    if isHigh unit then
      match rest with
      | low :: rest =>
        if isLow low then decodeAfter (pairChar unit low :: before) rest else none
      | [] => none
    else if isLow unit then none
    else decodeAfter (Char.ofNat unit.toNat :: before) rest

/-- The characters that the units spell, if every surrogate is part of a pair. -/
def decode (units : List UInt16) : Option (List Char) := decodeAfter [] units

end ClassDelta.Utf16
