import ClassDelta.Text.Unseen

/-!
# Quoted text

A text between double quotes, in a form that can be told apart at a glance:
quotes, backslashes and the common control characters have two-character
escapes, and every other character that does not show is written by its code.
-/

namespace ClassDelta.Quoted

/-- The escape of a character that is written by its hexadecimal code. -/
def codeEscape (char : Char) : String :=
  "\\u\x7b" ++ String.ofList (Nat.toDigits 16 char.toNat) ++ "\x7d"

/-- One character as it stands between the quotes. -/
def escape (char : Char) : String :=
  if char = '"' then "\\\""
  else if char = '\\' then "\\\\"
  else if char = '\n' then "\\n"
  else if char = '\r' then "\\r"
  else if char = '\t' then "\\t"
  else if char.toNat = 0 then "\\0"
  else if Unseen.isUnseen char then codeEscape char
  else char.toString

/-- The text in quotes. -/
def quote (text : String) : String :=
  "\"" ++ String.join (text.toList.map escape) ++ "\""

end ClassDelta.Quoted
