import ClassDelta.ParseError

/-!
# JSON documents

A `Json` document keeps the fields of its objects in the order they were given.
`Json.pretty` writes a document over several lines: every element and field is
on a line of its own, two blanks deeper than the bracket around it, and empty
brackets stay closed.
-/

namespace ClassDelta

/-- A JSON document whose numbers are natural. -/
inductive Json
  | null
  | bool (value : Bool)
  | number (value : Nat)
  | string (text : String)
  | array (elements : List Json)
  | object (fields : List (String × Json))

namespace Json

/-! ## Strings -/

/-- One character inside of a JSON string.  Quotes, backslashes and control
characters are escaped, and nothing else is. -/
def escape (char : Char) : String :=
  if char = '"' then "\\\""
  else if char = '\\' then "\\\\"
  else if char = '\n' then "\\n"
  else if char = '\r' then "\\r"
  else if char = '\t' then "\\t"
  else if char.toNat = 8 then "\\b"
  else if char.toNat = 12 then "\\f"
  else if char.toNat < 0x20 then
    "\\u00" ++ String.ofList [Nat.digitChar (char.toNat / 16), Nat.digitChar (char.toNat % 16)]
  else char.toString

/-- A JSON string with its quotes. -/
def quote (text : String) : String :=
  "\"" ++ String.join (text.toList.map escape) ++ "\""

/-! ## Documents -/

/-- The blanks in front of a line. -/
def indent (depth : Nat) : String := String.ofList (List.replicate (2 * depth) ' ')

/-- Items between brackets, each on its own line. -/
def bracketed (depth : Nat) (left right : String) (items : List String) : String :=
  if items.isEmpty then left ++ right
  else
    left ++ "\n" ++ ",\n".intercalate (items.map (indent (depth + 1) ++ ·)) ++ "\n" ++
      indent depth ++ right

mutual

/-- The document over several lines, the first of which is not indented. -/
def pretty (depth : Nat) : Json → String
  | null => "null"
  | bool true => "true"
  | bool false => "false"
  | number value => value.repr
  | string text => quote text
  | array elements => bracketed depth "[" "]" (prettyElements (depth + 1) elements)
  | object fields => bracketed depth "\x7b" "\x7d" (prettyFields (depth + 1) fields)

/-- The elements of an array. -/
def prettyElements (depth : Nat) : List Json → List String
  | [] => []
  | element :: later => pretty depth element :: prettyElements depth later

/-- The fields of an object, each with its name. -/
def prettyFields (depth : Nat) : List (String × Json) → List String
  | [] => []
  | (name, value) :: later =>
    (quote name ++ ": " ++ pretty depth value) :: prettyFields depth later

end

/-! ## Documents from values -/

/-- An absent text is `null`. -/
def ofText? : Option String → Json
  | some text => string text
  | none => null

def ofTexts (texts : List String) : Json := array (texts.map string)

end Json

end ClassDelta
