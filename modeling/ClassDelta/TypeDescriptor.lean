/-!
# Type descriptors

The types of fields and methods are written as descriptors: a letter for each
primitive type, `L`, a class name and `;` for a class, and `[` in front of the
element type of an array.  A method descriptor has the parameter types between
parentheses and the return type behind them.

* `FieldType.render` and `MethodType.render` write descriptors.
* `BaseType.read`, `FieldType.read` and `MethodType.read` read one from the
  front of a character list and leave the rest, also when they fail.
* `FieldType.source` spells a type as source code does.
-/

namespace ClassDelta

/-- The reasons a descriptor cannot be read. -/
inductive DescriptorError
  | missingBaseType
  | invalidBaseType (found : Char)
  | missingFieldType
  | invalidFieldType (found : Char)
  | emptyClassName
  | unterminatedClassName (name : String)
  | missingParameters
  | leftover (found : Char)
deriving DecidableEq

namespace DescriptorError

/-- The descriptor ends too early, rather than being wrong. -/
def isEarlyEnd : DescriptorError → Bool
  | missingBaseType | missingFieldType | unterminatedClassName _ => true
  | invalidBaseType _ | invalidFieldType _ | emptyClassName | missingParameters | leftover _ =>
    false

def message : DescriptorError → String
  | missingBaseType => "Missing base type character"
  | invalidBaseType found => "Invalid base type character '" ++ found.toString ++ "'"
  | missingFieldType => "Missing field type"
  | invalidFieldType found => "Invalid field type character '" ++ found.toString ++ "'"
  | emptyClassName => "Empty class name in object type"
  | unterminatedClassName name => "Missing terminator for 'L" ++ name ++ "'"
  | missingParameters => "Expected '(' for method"
  | leftover found => "Unexpected leftover input '" ++ found.toString ++ "'"

end DescriptorError

/-- Reading from the front of a character list. -/
abbrev DescriptorReader := EStateM DescriptorError (List Char)

/-- The value that a text spells from its first to its last character. -/
def DescriptorReader.parse {α : Type} (read : DescriptorReader α) (text : String) :
    Except DescriptorError α :=
  match read text.toList with
  | .ok value [] => .ok value
  | .ok _ (char :: _) => .error (.leftover char)
  | .error error _ => .error error

/-- A binary class name with dots between its packages, as source code writes
it.  The `$` of nested classes stays. -/
def sourceClassName (name : String) : String :=
  String.ofList (name.toList.map fun char => if char = '/' then '.' else char)

/-! ## Primitive types -/

/-- The primitive types. -/
inductive BaseType
  | byte
  | char
  | double
  | float
  | int
  | long
  | short
  | boolean
deriving DecidableEq

namespace BaseType

/-- The letter of the type in a descriptor. -/
def letter : BaseType → Char
  | byte => 'B'
  | char => 'C'
  | double => 'D'
  | float => 'F'
  | int => 'I'
  | long => 'J'
  | short => 'S'
  | boolean => 'Z'

/-- The type with a letter. -/
def ofLetter? : Char → Option BaseType
  | 'B' => some byte
  | 'C' => some char
  | 'D' => some double
  | 'F' => some float
  | 'I' => some int
  | 'J' => some long
  | 'S' => some short
  | 'Z' => some boolean
  | _ => none

/-- The keyword of the type. -/
def source : BaseType → String
  | byte => "byte"
  | char => "char"
  | double => "double"
  | float => "float"
  | int => "int"
  | long => "long"
  | short => "short"
  | boolean => "boolean"

/-- Read one letter, which is used up whatever it is. -/
def read : DescriptorReader BaseType
  | [] => .error .missingBaseType []
  | letter :: rest =>
    match ofLetter? letter with
    | some type => .ok type rest
    | none => .error (.invalidBaseType letter) rest

@[simp] theorem ofLetter?_letter (type : BaseType) : ofLetter? type.letter = some type := by
  cases type <;> rfl

end BaseType

/-! ## Field types -/

/-- The type of a field, a parameter or a result. -/
inductive FieldType
  | base (type : BaseType)
  | object (className : String)
  | array (element : FieldType)
deriving DecidableEq

namespace FieldType

/-- The descriptor of the type. -/
def render : FieldType → String
  | base type => type.letter.toString
  | object className => "L" ++ className ++ ";"
  | array element => "[" ++ element.render

/-- The type as source code spells it. -/
def source : FieldType → String
  | base type => type.source
  | object className => sourceClassName className
  | array element => element.source ++ "[]"

/-- Read a class name up to its `;`, in front of which the given characters were
read already (last one first). -/
def readClassName (before : List Char) : DescriptorReader FieldType
  | [] => .error (.unterminatedClassName (String.ofList before.reverse)) []
  | ';' :: rest =>
    if before.isEmpty then .error .emptyClassName rest
    else .ok (object (String.ofList before.reverse)) rest
  | char :: rest => readClassName (char :: before) rest

/-- Read one type.  A character that starts none is left unread. -/
def read : DescriptorReader FieldType
  | [] => .error .missingFieldType []
  | '[' :: rest =>
    match read rest with
    | .ok element rest => .ok (array element) rest
    | .error error rest => .error error rest
  | 'L' :: rest => readClassName [] rest
  | letter :: rest =>
    match BaseType.ofLetter? letter with
    | some type => .ok (base type) rest
    | none => .error (.invalidFieldType letter) (letter :: rest)

end FieldType

/-! ## Method types -/

/-- The parameter types of a method and its return type, which is absent for
`void`. -/
structure MethodType where
  parameters : List FieldType
  result : Option FieldType
deriving DecidableEq

namespace MethodType

/-- The descriptor of the type. -/
def render (type : MethodType) : String :=
  "(" ++ String.join (type.parameters.map FieldType.render) ++ ")" ++
    match type.result with
    | some result => result.render
    | none => "V"

/-- The return type as source code spells it. -/
def sourceResult (type : MethodType) : String :=
  match type.result with
  | some result => result.source
  | none => "void"

/-- The parameter types as source code lists them. -/
def sourceParameters (type : MethodType) : String :=
  ", ".intercalate (type.parameters.map FieldType.source)

/-- Read types up to the closing parenthesis, in front of which the given ones
were read already (last one first).  Every type takes a character, so the
length of the text is enough fuel. -/
def readParameters : (fuel : Nat) → List FieldType → DescriptorReader (List FieldType)
  | 0, _ => throw .missingFieldType
  | fuel + 1, before => fun text =>
    match text with
    | ')' :: rest => .ok before.reverse rest
    | _ =>
      match FieldType.read text with
      | .ok parameter rest => readParameters fuel (parameter :: before) rest
      | .error error rest => .error error rest

/-- Read a return type, where `V` stands for none. -/
def readResult : DescriptorReader (Option FieldType) := fun text =>
  match text with
  | 'V' :: rest => .ok none rest
  | _ => (some <$> FieldType.read) text

/-- Read one method type. -/
def read : DescriptorReader MethodType := fun text =>
  match text with
  | '(' :: rest =>
    (do
      let parameters ← readParameters (rest.length + 1) []
      let result ← readResult
      return ⟨parameters, result⟩ : DescriptorReader MethodType) rest
  | _ => .error .missingParameters text

end MethodType

end ClassDelta
