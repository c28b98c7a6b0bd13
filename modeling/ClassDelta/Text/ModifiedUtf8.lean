import ClassDelta.Bytes.BigEndian
import ClassDelta.Text.Utf16

/-!
# Modified UTF-8

The text encoding of class files.  It differs from UTF-8 in two ways: `U+0000`
takes two bytes, so that no encoded text holds a zero byte, and a character
above `U+FFFF` is written as its two UTF-16 surrogates of three bytes each.

* `encode` writes a text.
* `decodeUnits` is the general reader: one, two or three bytes make a UTF-16
  unit, and the units are then read as characters.
* `decode` is the reader to use.  It recognises plain ASCII first, where every
  byte is the character it stands for.
-/

namespace ClassDelta.ModifiedUtf8

/-! ## Writing -/

/-- The bytes of one UTF-16 unit: one for ASCII other than zero, two below
`0x800`, three from there on. -/
def encodeUnit (unit : UInt16) : Bytes :=
  let code := unit.toNat
  if 0 < code ∧ code < 0x80 then [UInt8.ofNat code]
  else if code < 0x800 then [UInt8.ofNat (0xC0 + code / 0x40), UInt8.ofNat (0x80 + code % 0x40)]
  else
    [UInt8.ofNat (0xE0 + code / 0x1000), UInt8.ofNat (0x80 + code / 0x40 % 0x40),
      UInt8.ofNat (0x80 + code % 0x40)]

/-- The bytes of one character. -/
def encodeChar (char : Char) : Bytes := (Utf16.encodeChar char).flatMap encodeUnit

/-- The bytes of a text. -/
def encode (text : String) : Bytes := text.toList.flatMap encodeChar

/-! ## Reading -/

/-- The six payload bits of a continuation byte. -/
def continuation (byte : UInt8) : Option Nat :=
  if 0x80 ≤ byte.toNat ∧ byte.toNat < 0xC0 then some (byte.toNat % 0x40) else none

/-- Read bytes as UTF-16 units, in front of those read before (last one first).
The first byte of a unit tells how many bytes it has; zero bytes, four-byte
forms and stray continuation bytes are refused. -/
def unitsAfter (before : List UInt16) : Bytes → Option (List UInt16)
  | [] => some before.reverse
  | first :: rest =>
    let lead := first.toNat
    if 0 < lead ∧ lead < 0x80 then unitsAfter (UInt16.ofNat lead :: before) rest
    else if 0xC0 ≤ lead ∧ lead < 0xE0 then
      match rest with
      | low :: rest =>
        match continuation low with
        | some low => unitsAfter (UInt16.ofNat (lead % 0x20 * 0x40 + low) :: before) rest
        | none => none
      | [] => none
    else if 0xE0 ≤ lead ∧ lead < 0xF0 then
      match rest with
      | middle :: low :: rest =>
        match continuation middle, continuation low with
        | some middle, some low =>
          unitsAfter (UInt16.ofNat (lead % 0x10 * 0x1000 + middle * 0x40 + low) :: before) rest
        | _, _ => none
      | _ => none
    else none

/-- The UTF-16 units that the bytes spell. -/
def units (bytes : Bytes) : Option (List UInt16) := unitsAfter [] bytes

/-- The text that the bytes spell, read unit by unit. -/
def decodeUnits (bytes : Bytes) : Option String := do
  let units ← units bytes
  let chars ← Utf16.decode units
  return String.ofList chars

/-- A byte that stands for itself: ASCII other than zero. -/
def isPlain (byte : UInt8) : Bool := byte != 0 && byte < 0x80

/-- The text that the bytes spell.  Nearly every name is plain ASCII, which
needs no units. -/
def decode (bytes : Bytes) : Option String :=
  if bytes.all isPlain then some (String.ofList (bytes.map fun byte => Char.ofNat byte.toNat))
  else decodeUnits bytes

end ClassDelta.ModifiedUtf8
