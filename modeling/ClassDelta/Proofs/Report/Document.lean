import ClassDelta.Proofs.AccessFlags
import ClassDelta.Proofs.Text.Json
import ClassDelta.Report.Render

/-!
# What the JSON form of a report keeps

Each value in a report has a JSON form of its own, as objects give every part of
a value a field and start with the name of the case where there are several.
The lemmas `toFields_inj` and `toJson_inj` say so from the parts up; flags come
out of their names (`Flags.names_inj`).  Only errors are not kept, of which there
is no more than the message (`Outcome.SameShown`).

Beside each goes a lemma that says that the object uses no name twice.

The end is `Report.render_json_eq_iff`, where the text takes the place of the
document that it spells.
-/

namespace ClassDelta

open Json

/-! ## Members and classes -/

theorem Version.toJson_inj {version version' : Version} :
    version.toJson = version'.toJson ↔ version = version' := by
  obtain ⟨major, minor⟩ := version
  obtain ⟨major', minor'⟩ := version'
  simp [toJson, UInt16.toNat_inj]

theorem Version.hasDistinctKeys_toJson (version : Version) : version.toJson.HasDistinctKeys := by
  simp [toJson]

/-- Flags that are shown are known by the list of their names. -/
theorem Flags.names_inj {scope : FlagScope} (hscope : scope ≠ .ofInnerClass)
    {flags flags' : Flags scope} : flags.names = flags'.names ↔ flags = flags' := by
  refine ⟨fun h => eq_of_sameNames hscope fun name => ?_, congrArg names⟩
  rw [h]

theorem Member.toFields_inj {kind : MemberKind} {member member' : Member kind} :
    member.toFields = member'.toFields ↔ member = member' := by
  obtain ⟨owner, name, descriptor, flags, signature, detail, mark, deprecated⟩ := member
  obtain ⟨owner', name', descriptor', flags', signature', detail', mark', deprecated'⟩ := member'
  cases kind with
  | field => simp [toFields, Flags.names_inj (MemberKind.scope_ne_ofInnerClass .field)]
  | method => simp [toFields, Flags.names_inj (MemberKind.scope_ne_ofInnerClass .method)]

theorem ClassHeader.toFields_inj {header header' : ClassHeader} :
    header.toFields = header'.toFields ↔ header = header' := by
  obtain ⟨name, version, flags, superClass, interfaces, outerClass, signature, deprecated⟩ := header
  obtain ⟨name', version', flags', superClass', interfaces', outerClass', signature',
    deprecated'⟩ := header'
  simp [toFields, Flags.names_inj, Version.toJson_inj]

namespace Subject

/-- The case is one of three, each with fields of its own. -/
theorem toJson_inj {subject subject' : Subject} :
    subject.toJson = subject'.toJson ↔ subject = subject' := by
  rcases subject with header | @⟨_ | _, member⟩ <;>
    rcases subject' with header' | @⟨_ | _, member'⟩ <;>
    simp [toJson, caseName, ClassHeader.toFields_inj, Member.toFields_inj]

theorem hasDistinctKeys_toJson (subject : Subject) : subject.toJson.HasDistinctKeys := by
  rcases subject with header | @⟨_ | _, member⟩
  · simp [toJson, caseName, ClassHeader.toFields, Version.hasDistinctKeys_toJson]
  · simp [toJson, caseName, Member.toFields]
  · simp [toJson, caseName, Member.toFields]

end Subject

/-! ## Changes -/

namespace Delta

theorem setFields_inj {delta delta' : SetDelta} :
    setFields delta = setFields delta' ↔ delta = delta' := by
  obtain ⟨added, removed⟩ := delta
  obtain ⟨added', removed'⟩ := delta'
  simp [setFields]

theorem valueFields_inj {α : Type} {encode : α → Json}
    (hencode : ∀ value value', encode value = encode value' ↔ value = value')
    (value value' : Replaced α) :
    valueFields encode value = valueFields encode value' ↔ value = value' := by
  obtain ⟨old, new⟩ := value
  obtain ⟨old', new'⟩ := value'
  simp [valueFields, hencode]

/-- Deltas with fields of the same names are told apart by their cases. -/
theorem toJson_inj {delta delta' : Delta} : delta.toJson = delta'.toJson ↔ delta = delta' := by
  have htext := valueFields_inj fun value value' => @ofText?_inj value value'
  have hbool := valueFields_inj fun value value' => Iff.of_eq (bool.injEq value value')
  have hversion := valueFields_inj fun value value' => @Version.toJson_inj value value'
  cases delta <;> cases delta' <;>
    simp [toJson, caseName, toFields, setFields_inj, htext, hbool, hversion]

theorem hasDistinctKeys_toJson (delta : Delta) : delta.toJson.HasDistinctKeys := by
  cases delta <;> simp [toJson, caseName, toFields, setFields, valueFields,
    Version.hasDistinctKeys_toJson]

end Delta

theorem Classification.text_inj {classification classification' : Classification} :
    classification.text = classification'.text ↔ classification = classification' := by
  cases classification <;> cases classification' <;> decide

namespace Change

theorem toJson_inj {change change' : Change} : change.toJson = change'.toJson ↔ change = change' := by
  have hdeltas (deltas deltas' : List Delta) :
      deltas.map Delta.toJson = deltas'.map Delta.toJson ↔ deltas = deltas' :=
    List.map_inj_right fun _ _ => Delta.toJson_inj.1
  cases change <;> cases change' <;>
    simp [toJson, Subject.toJson_inj, Classification.text_inj, hdeltas]

theorem hasDistinctKeys_toJson (change : Change) : change.toJson.HasDistinctKeys := by
  cases change <;>
    simp [toJson, Subject.hasDistinctKeys_toJson, Delta.hasDistinctKeys_toJson]

end Change

/-! ## Reports -/

theorem Side.text_inj {side side' : Side} : side.text = side'.text ↔ side = side' := by
  cases side <;> cases side' <;> decide

/-- The outcomes are the same, except that errors only have to read the same. -/
def Outcome.SameShown : Outcome → Outcome → Prop
  | .compared changes, .compared changes' => changes = changes'
  | .failed side error, .failed side' error' => side = side' ∧ error.message = error'.message
  | .incomplete, .incomplete => True
  | _, _ => False

/-- Different errors can read the same. -/
example : ParseError.message (.malformedClass (.duplicateMember "ab" "I")) =
    ParseError.message (.malformedClass (.duplicateMember "a" "bI")) := by decide

/-- The entries are for the same class, with outcomes that show the same. -/
structure Entry.SameShown (entry entry' : Entry) : Prop where
  name : entry.name = entry'.name
  outcome : entry.outcome.SameShown entry'.outcome

namespace Entry

/-- The object of an entry has the fields of the outcome in it. -/
def toJson (entry : Entry) : Json := .object (("name", .string entry.name) :: entry.outcome.toFields)

theorem toJson_eq_iff {entry entry' : Entry} :
    entry.toJson = entry'.toJson ↔ entry.SameShown entry' := by
  have hchanges (changes changes' : List Change) :
      changes.map Change.toJson = changes'.map Change.toJson ↔ changes = changes' :=
    List.map_inj_right fun _ _ => Change.toJson_inj.1
  have hfields : entry.outcome.toFields = entry'.outcome.toFields ↔
      entry.outcome.SameShown entry'.outcome := by
    cases entry.outcome <;> cases entry'.outcome <;>
      simp [Outcome.toFields, Outcome.SameShown, Side.text_inj, hchanges]
  rw [toJson, toJson, object.injEq, List.cons.injEq, Prod.mk.injEq, string.injEq, hfields]
  exact ⟨fun h => ⟨h.1.2, h.2⟩, fun h => ⟨⟨rfl, h.name⟩, h.outcome⟩⟩

theorem hasDistinctKeys_toJson (entry : Entry) : entry.toJson.HasDistinctKeys := by
  obtain ⟨name, outcome⟩ := entry
  cases outcome <;> simp [toJson, Outcome.toFields, Change.hasDistinctKeys_toJson]

end Entry

namespace Report

theorem toJson_eq (report : Report) :
    report.toJson = .object [("entries", .array (report.entries.map Entry.toJson))] := rfl

theorem toJson_eq_iff {report report' : Report} :
    report.toJson = report'.toJson ↔
      List.Forall₂ Entry.SameShown report.entries report'.entries := by
  have hentries : report.entries.map Entry.toJson = report'.entries.map Entry.toJson ↔
      List.Forall₂ Entry.SameShown report.entries report'.entries := by
    rw [← List.forall₂_eq_eq_eq, List.forall₂_map_left_iff, List.forall₂_map_right_iff]
    simp only [Entry.toJson_eq_iff]
  simp [toJson_eq, hentries]

theorem hasDistinctKeys_toJson (report : Report) : report.toJson.HasDistinctKeys := by
  simp [toJson_eq, Entry.hasDistinctKeys_toJson]

theorem render_json (report : Report) (colours : Bool) :
    report.render .json colours = report.toJson.pretty 0 ++ "\n" := by
  cases colours <;> simp [render, styled, StyledText.render, StyledText.plain, StyledText.ansi,
    StyledPiece.plain, StyledPiece.ansi, String.join]

/-- Two reports have the same JSON text exactly if they have entries for the same
classes in the same order, with the same changes or with errors that read the
same.  No other document has this text, and no object in the document uses a name
twice. -/
theorem render_json_eq_iff (report report' : Report) (colours colours' : Bool) :
    (report.render .json colours = report'.render .json colours' ↔
      List.Forall₂ Entry.SameShown report.entries report'.entries) ∧
    ∃ document : Json, document.HasDistinctKeys ∧
      ∀ other : Json, other.pretty 0 ++ "\n" = report.render .json colours ↔ other = document := by
  refine ⟨?_, report.toJson, report.hasDistinctKeys_toJson, fun other => ?_⟩
  · rw [render_json, render_json, pretty_append_break_inj, toJson_eq_iff]
  · rw [render_json, pretty_append_break_inj]

end Report

end ClassDelta
