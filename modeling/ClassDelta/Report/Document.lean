import ClassDelta.Report.Basic
import ClassDelta.Text.Json

/-!
# Reports as JSON

The JSON form of everything in a report.  An object that stands for one of
several cases starts with a field that names the case (`kind`, `change`,
`delta` or `outcome`), except that an entry starts with the name of its class.
-/

namespace ClassDelta

namespace Version

def toJson (version : Version) : Json :=
  .object [("major_version", .number version.major.toNat),
    ("minor_version", .number version.minor.toNat)]

end Version

namespace Member

/-- The fields of a member's object. -/
def toFields {kind : MemberKind} (member : Member kind) : List (String × Json) :=
  [("owner", .string member.owner), ("name", .string member.name),
    ("descriptor", .string member.descriptor),
    ("access_flags", .ofTexts member.flags.names),
    ("signature", .ofText? member.signature)] ++
    (match kind, member.detail with
    | .field, literal => [("constant_value", .ofText? literal)]
    | .method, exceptions => [("exceptions", .ofTexts exceptions)]) ++
    [("synthetic_attribute", .bool member.syntheticAttribute),
      ("deprecated", .bool member.deprecated)]

def toJson {kind : MemberKind} (member : Member kind) : Json := .object member.toFields

end Member

namespace ClassInfo

def toJson (info : ClassInfo) : Json :=
  .object [("name", .string info.name), ("version", info.version.toJson),
    ("access_flags", .ofTexts info.flags.names), ("super_class", .ofText? info.superClass),
    ("interfaces", .ofTexts info.interfaces),
    ("fields", .array (info.fields.map Member.toJson)),
    ("methods", .array (info.methods.map Member.toJson)),
    ("outer_class", .ofText? info.outerClass), ("signature", .ofText? info.signature),
    ("synthetic_attribute", .bool info.syntheticAttribute),
    ("deprecated", .bool info.deprecated)]

end ClassInfo

namespace ClassHeader

/-- The fields of a header's object. -/
def toFields (header : ClassHeader) : List (String × Json) :=
  [("name", .string header.name), ("version", header.version.toJson),
    ("access_flags", .ofTexts header.flags.names), ("super_class", .ofText? header.superClass),
    ("interfaces", .ofTexts header.interfaces), ("outer_class", .ofText? header.outerClass),
    ("signature", .ofText? header.signature), ("deprecated", .bool header.deprecated)]

def toJson (header : ClassHeader) : Json := .object header.toFields

end ClassHeader

namespace Subject

/-- The name of the case. -/
def caseName : Subject → String
  | ofClass _ => "class"
  | @member .field _ => "field"
  | @member .method _ => "method"

def toJson (subject : Subject) : Json :=
  .object (("kind", .string subject.caseName) ::
    match subject with
    | ofClass header => header.toFields
    | member declared => declared.toFields)

end Subject

namespace Delta

/-- The fields of what a set has gained and lost. -/
def setFields (delta : SetDelta) : List (String × Json) :=
  [("added", .ofTexts delta.added), ("removed", .ofTexts delta.removed)]

/-- The fields of an old and a new value. -/
def valueFields {α : Type} (encode : α → Json) (value : Replaced α) : List (String × Json) :=
  [("old", encode value.old), ("new", encode value.new)]

/-- The name of the case. -/
def caseName : Delta → String
  | flags _ => "access_flags"
  | signature _ => "signature"
  | exceptions _ => "exceptions"
  | constantValue _ => "constant_value"
  | deprecated _ => "deprecated"
  | superClass _ => "super_class"
  | interfaces _ => "interfaces"
  | version _ => "version"
  | outerClass _ => "outer_class"

/-- The fields of a delta's object behind the name of its case. -/
def toFields : Delta → List (String × Json)
  | flags names => setFields names
  | exceptions classes => setFields classes
  | interfaces classes => setFields classes
  | signature value => valueFields .ofText? value
  | constantValue literal => valueFields .ofText? literal
  | superClass name => valueFields .ofText? name
  | outerClass name => valueFields .ofText? name
  | deprecated mark => valueFields .bool mark
  | version value => valueFields Version.toJson value

def toJson (delta : Delta) : Json := .object (("delta", .string delta.caseName) :: delta.toFields)

end Delta

namespace Change

def toJson : Change → Json
  | added subject classification =>
    .object [("change", .string "added"), ("subject", subject.toJson),
      ("classification", .string classification.text)]
  | removed subject classification =>
    .object [("change", .string "removed"), ("subject", subject.toJson),
      ("classification", .string classification.text)]
  | modified old new deltas classification =>
    .object [("change", .string "modified"), ("old", old.toJson), ("new", new.toJson),
      ("deltas", .array (deltas.map Delta.toJson)),
      ("classification", .string classification.text)]

end Change

namespace Outcome

/-- The fields of an outcome; an error is given by its message. -/
def toFields : Outcome → List (String × Json)
  | compared changes =>
    [("outcome", .string "compared"), ("changes", .array (changes.map Change.toJson))]
  | failed side error =>
    [("outcome", .string "failed"), ("side", .string side.text), ("error", .string error.message)]
  | incomplete => [("outcome", .string "incomplete")]

def toJson (outcome : Outcome) : Json := .object outcome.toFields

end Outcome

namespace Report

def toJson (report : Report) : Json :=
  .object [("entries", .array (report.entries.map fun entry =>
    .object (("name", .string entry.name) :: entry.outcome.toFields)))]

end Report

end ClassDelta
