import ClassDelta.Report.Document
import ClassDelta.Text.Styled

/-!
# Reports as text

A report can be shown in four modes: a line with a symbol for every class, all
changes with members written out as declarations, the number of changes per
class, and JSON.
-/

namespace ClassDelta

/-- How a report is shown. -/
inductive OutputMode
  | status
  | changes
  | stat
  | json
deriving DecidableEq

namespace OutputMode

/-- The mode that goes by a name. -/
def ofName? : String → Option OutputMode
  | "status" => some status
  | "changes" => some changes
  | "stat" => some stat
  | "json" => some json
  | _ => none

end OutputMode

/-! ## Deltas in words -/

namespace SetDelta

/-- What was gained, each with a plus, then what was lost, each with a minus. -/
def text (delta : SetDelta) : String :=
  " ".intercalate (delta.added.map ("+" ++ ·) ++ delta.removed.map ("-" ++ ·))

/-- The same for class names, which are shown as source code writes them. -/
def classText (delta : SetDelta) : String :=
  text ⟨delta.added.map sourceClassName, delta.removed.map sourceClassName⟩

end SetDelta

namespace Replaced

/-- Old and new value with an arrow between them. -/
def arrow {α : Type} (value : Replaced α) (text : α → String) : String :=
  text value.old ++ " -> " ++ text value.new

end Replaced

namespace Delta

/-- An absent text shows as `none`. -/
def orNone (value : Option String) : String := value.getD "none"

/-- The delta as a phrase. -/
def text : Delta → String
  | flags names => "access flags: " ++ names.text
  | signature value => "signature: " ++ value.arrow orNone
  | exceptions classes => "exceptions: " ++ classes.classText
  | constantValue literal => "constant value: " ++ literal.arrow orNone
  | deprecated mark => if mark.new then "deprecated" else "no longer deprecated"
  | superClass name => "superclass: " ++ name.arrow fun name => orNone (name.map sourceClassName)
  | interfaces classes => "interfaces: " ++ classes.classText
  | version value => "class file version: " ++ value.arrow Version.text
  | outerClass name => "outer class: " ++ name.arrow fun name => orNone (name.map sourceClassName)

end Delta

/-! ## Status -/

namespace Outcome

/-- The symbol of an outcome and its colour. -/
def symbol (outcome : Outcome) : Colour × String :=
  match outcome with
  | compared [] => (.green, "✔")
  | compared _ => (.yellow, "⨯")
  | failed _ _ => (.red, "!")
  | incomplete => (.magenta, "?")

end Outcome

namespace Entry

/-- The line of an entry in status mode. -/
def statusLine (entry : Entry) : StyledText :=
  let (colour, symbol) := entry.outcome.symbol
  StyledText.styled (.coloured colour) symbol ++ [.text (" " ++ sourceClassName entry.name ++ "\n")]

end Entry

/-! ## Changes -/

namespace ChangeKind

def symbol : ChangeKind → String
  | added => "+"
  | removed => "-"
  | modified => "~"

def style : ChangeKind → Style
  | added => .coloured .green
  | removed => .coloured .red
  | modified => .coloured .yellow

end ChangeKind

namespace Change

/-- The aspects that a modification concerns. -/
def deltas : Change → List Delta
  | modified _ _ deltas _ => deltas
  | added _ _ | removed _ _ => []

/-- Where the subject comes from, unless the source code declares it. -/
def note (change : Change) : StyledText :=
  if change.classification.isSourceDeclared then []
  else StyledText.styled .dimmed (" [" ++ change.classification.text ++ "]")

/-- The lines of a change: its subject, then one line per delta. -/
def lines (change : Change) : StyledText :=
  StyledText.styled change.kind.style ("  " ++ change.kind.symbol ++ " ") ++
    [.text change.subject.declaration] ++ change.note ++ [.text "\n"] ++
    change.deltas.flatMap fun delta => StyledText.styled .dimmed ("      " ++ delta.text ++ "\n")

end Change

namespace Entry

/-- The name of the class, as the head of what follows. -/
def head (entry : Entry) : StyledText := StyledText.styled .bold (sourceClassName entry.name)

/-- The lines of an entry in changes mode; a class without changes has none. -/
def changeLines (entry : Entry) : StyledText :=
  match entry.outcome with
  | .compared [] => []
  | .compared changes => entry.head ++ [.text "\n"] ++ changes.flatMap Change.lines
  | .failed side error =>
    entry.head ++ StyledText.styled (.coloured .red)
      (" failed to parse " ++ side.text ++ " class: " ++ error.message ++ "\n")
  | .incomplete =>
    entry.head ++ StyledText.styled (.coloured .magenta) " comparison did not finish\n"

/-! ## Counts -/

/-- How many of the changes are of a kind, behind a gap and the symbol of the
kind, all in its style. -/
def countText (changes : List Change) (gap : String) (kind : ChangeKind) : StyledText :=
  let count := changes.countP fun change => change.kind = kind
  [.start kind.style, .text (gap ++ kind.symbol ++ count.repr)]

/-- The line of an entry in stat mode, for a class that has changed. -/
def statLine (entry : Entry) : StyledText :=
  match entry.outcome with
  | .compared [] | .failed _ _ | .incomplete => []
  | .compared changes =>
    [.text (sourceClassName entry.name ++ " ")] ++ countText changes "" .added ++
      countText changes " " .removed ++ countText changes " " .modified ++ [.reset, .text "\n"]

end Entry

namespace Report

/-- The report as styled text. -/
def styled (mode : OutputMode) (report : Report) : StyledText :=
  match mode with
  | .status => report.entries.flatMap Entry.statusLine
  | .changes => report.entries.flatMap Entry.changeLines
  | .stat => report.entries.flatMap Entry.statLine ++ [.text (report.summary.text ++ "\n")]
  | .json => [.text (report.toJson.pretty 0 ++ "\n")]

/-- The report as text, with or without colours. -/
def render (mode : OutputMode) (colours : Bool) (report : Report) : String :=
  (report.styled mode).render colours

end Report

end ClassDelta
