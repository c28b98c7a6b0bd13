import ClassDelta.Bytes.BigEndian

/-!
# Names of zip entries

A zip archive marks the names that are UTF-8; all others are in the 256-character
code page of the format.  Neither reading fails: every byte of the code page is
a character, and bytes that are no UTF-8 become replacement characters.
-/

namespace ClassDelta.EntryName

/-! ## Code page 437 -/

/-- The characters of the bytes from 128 on. -/
def upperHalf : String :=
    "ÇüéâäàåçêëèïîìÄÅ" ++
    "ÉæÆôöòûùÿÖÜ¢£¥₧ƒ" ++
    "áíóúñÑªº¿⌐¬½¼¡«»" ++
    "░▒▓│┤╡╢╖╕╣║╗╝╜╛┐" ++
    "└┴┬├─┼╞╟╚╔╩╦╠═╬╧" ++
    "╨╤╥╙╘╒╓╫╪┘┌█▄▌▐▀" ++
    "αßΓπΣσµτΦΘΩδ∞φε∩" ++
    "≡±≥≤⌠⌡÷≈°∙·√ⁿ²■\u00a0"

/-- The characters of the bytes from 128 on, by position. -/
def upperChars : Array Char := upperHalf.toList.toArray

/-- The character of a byte in the code page. -/
def codePageChar (byte : UInt8) : Char :=
  if byte < 128 then Char.ofNat byte.toNat else upperChars.getD (byte.toNat - 128) '?'

/-- The text that bytes spell in the code page. -/
def ofCodePage (bytes : Bytes) : String := String.ofList (bytes.map codePageChar)

/-! ## UTF-8 -/

/-- What stands for bytes that are no UTF-8. -/
def replacement : Char := Char.ofNat 0xFFFD

/-- The number of bytes behind the first one of a character, and the range of
the second byte; the narrower ranges rule out codes that have a shorter form,
surrogates, and codes past the last character. -/
def sequenceShape (lead : Nat) : Option (Nat × Nat × Nat) :=
  if 0xC2 ≤ lead ∧ lead < 0xE0 then some (1, 0x80, 0xBF)
  else if lead = 0xE0 then some (2, 0xA0, 0xBF)
  else if lead = 0xED then some (2, 0x80, 0x9F)
  else if 0xE1 ≤ lead ∧ lead < 0xF0 then some (2, 0x80, 0xBF)
  else if lead = 0xF0 then some (3, 0x90, 0xBF)
  else if 0xF1 ≤ lead ∧ lead < 0xF4 then some (3, 0x80, 0xBF)
  else if lead = 0xF4 then some (3, 0x80, 0x8F)
  else none

/-- A character of which some bytes were read: how many are missing, the range
of the next one, and the code so far. -/
structure Pending where
  missing : Nat
  low : Nat
  high : Nat
  code : Nat

/-- What the first byte of a character gives: all of it, a part of it, or
nothing that could be one. -/
def startChar (byte : Nat) : Char ⊕ Pending :=
  if byte < 0x80 then .inl (Char.ofNat byte)
  else
    match sequenceShape byte with
    | some (count, low, high) => .inr ⟨count, low, high, byte % (1 <<< (6 - count))⟩
    | none => .inl replacement

/-- Read characters behind those read before (last one first), the last of which
may be unfinished.  A byte that does not go on with it starts anew, and what
there was of it becomes one replacement character. -/
def decodeAfter (before : List Char) (pending : Option Pending) : Bytes → List Char
  | [] => (if pending.isSome then replacement :: before else before).reverse
  | byte :: rest =>
    let fresh (before : List Char) :=
      match startChar byte.toNat with
      | .inl char => decodeAfter (char :: before) none rest
      | .inr pending => decodeAfter before (some pending) rest
    match pending with
    | none => fresh before
    | some pending =>
      if pending.low ≤ byte.toNat ∧ byte.toNat ≤ pending.high then
        let code := pending.code * 0x40 + byte.toNat % 0x40
        if pending.missing ≤ 1 then decodeAfter (Char.ofNat code :: before) none rest
        else decodeAfter before (some ⟨pending.missing - 1, 0x80, 0xBF, code⟩) rest
      else fresh (replacement :: before)

/-- The text that bytes spell in UTF-8. -/
def ofUtf8 (bytes : Bytes) : String := String.ofList (decodeAfter [] none bytes)

/-- The name of an entry. -/
def decode (isUtf8 : Bool) (bytes : Bytes) : String :=
  if isUtf8 then ofUtf8 bytes else ofCodePage bytes

end ClassDelta.EntryName
