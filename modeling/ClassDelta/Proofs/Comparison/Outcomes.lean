import ClassDelta.Proofs.Comparison.Collecting
import ClassDelta.Proofs.Comparison.Matching
import Mathlib.Data.List.Forall2

/-!
# What an entry depends on

`Settles` says what the outcome for a class is, given its bytes on the sides it
is on: the first side that cannot be read, or else the changes between what was
read.  Nothing else of the two lists of classes has a part in it, so an entry
does not change with the bytes of classes of other names
(`Comparison.entries_report`).
-/

namespace ClassDelta

/-! ## The outcome for one class -/

/-- The class can be read on a side, or is not there. -/
def IsReadable (supported : VersionRange) (bytes? : Option Bytes) : Prop :=
  ∀ bytes, bytes? = some bytes → ∃ info, ClassInfo.parse supported bytes = .ok info

/-- The outcome for a class with these bytes on its sides.  There is none for a
class that is on neither side. -/
inductive Settles (settings : Settings) : (old new : Option Bytes) → Outcome → Prop
  | oldFails {old : Bytes} {new : Option Bytes} {error : ParseError}
      (hold : ClassInfo.parse settings.supported old = .error error) :
    Settles settings (some old) new (.failed .old error)
  | newFails {old : Option Bytes} {new : Bytes} {error : ParseError}
      (hold : IsReadable settings.supported old)
      (hnew : ClassInfo.parse settings.supported new = .error error) :
    Settles settings old (some new) (.failed .new error)
  | both {old new : Bytes} {oldInfo newInfo : ClassInfo}
      (hold : ClassInfo.parse settings.supported old = .ok oldInfo)
      (hnew : ClassInfo.parse settings.supported new = .ok newInfo) :
    Settles settings (some old) (some new) (.compared
      ((ClassifiedClass.ofInfo oldInfo).changes settings.includeSynthetics (.ofInfo newInfo)))
  | removed {old : Bytes} {info : ClassInfo}
      (hold : ClassInfo.parse settings.supported old = .ok info) :
    Settles settings (some old) none (.compared
      ((ClassifiedClass.ofInfo info).removalChanges settings.includeSynthetics))
  | added {new : Bytes} {info : ClassInfo}
      (hnew : ClassInfo.parse settings.supported new = .ok info) :
    Settles settings none (some new) (.compared
      ((ClassifiedClass.ofInfo info).additionChanges settings.includeSynthetics))

namespace Job

theorem parseSide_of_ok {supported : VersionRange} {bytes : Bytes} {info : ClassInfo}
    (h : ClassInfo.parse supported bytes = .ok info) (side : Side) :
    parseSide supported side bytes = .ok (.ofInfo info) := by
  rw [parseSide, h]

theorem parseSide_of_error {supported : VersionRange} {bytes : Bytes} {error : ParseError}
    (h : ClassInfo.parse supported bytes = .error error) (side : Side) :
    parseSide supported side bytes = .error (side, error) := by
  rw [parseSide, h]

/-- A job comes out as it has to. -/
theorem settles_outcome (settings : Settings) {job : Job} (h : job.isEmpty = false) :
    Settles settings job.old job.new (job.outcome settings) := by
  obtain ⟨name, old, new⟩ := job
  cases old with
  | none =>
    cases new with
    | none => cases h
    | some new =>
      cases hnew : ClassInfo.parse settings.supported new with
      | error error =>
        simp only [outcome, changes, parseSide_of_error hnew]
        exact .newFails (fun _ hnone => nomatch hnone) hnew
      | ok info =>
        simp only [outcome, changes, parseSide_of_ok hnew]
        exact .added hnew
  | some old =>
    cases hold : ClassInfo.parse settings.supported old with
    | error error =>
      cases new with
      | none =>
        simp only [outcome, changes, parseSide_of_error hold]
        exact .oldFails hold
      | some new =>
        simp only [outcome, changes, parseSide_of_error hold]
        exact .oldFails hold
    | ok oldInfo =>
      cases new with
      | none =>
        simp only [outcome, changes, parseSide_of_ok hold]
        exact .removed hold
      | some new =>
        have hreadable : IsReadable settings.supported (some old) := by
          intro bytes hbytes
          cases hbytes
          exact ⟨oldInfo, hold⟩
        cases hnew : ClassInfo.parse settings.supported new with
        | error error =>
          simp only [outcome, changes, parseSide_of_ok hold, parseSide_of_error hnew]
          exact .newFails hreadable hnew
        | ok newInfo =>
          simp only [outcome, changes, parseSide_of_ok hold, parseSide_of_ok hnew]
          exact .both hold hnew

end Job

/-! ## Replacing the bytes of one name -/

namespace NamedClass

/-- The same classes, but for the bytes of those with one name. -/
def AgreeExcept (name : String) : List NamedClass → List NamedClass → Prop :=
  List.Forall₂ fun left right =>
    left.name = right.name ∧ (left.name ≠ name → left.bytes = right.bytes)

theorem AgreeExcept.refl (name : String) (classes : List NamedClass) :
    AgreeExcept name classes classes :=
  List.forall₂_same.2 fun _ _ => ⟨rfl, fun _ => rfl⟩

theorem AgreeExcept.map_name_eq {name : String} {left right : List NamedClass}
    (h : AgreeExcept name left right) :
    left.map NamedClass.name = right.map NamedClass.name := by
  induction h with
  | nil => rfl
  | cons hfirst _ ih => rw [List.map_cons, List.map_cons, hfirst.1, ih]

theorem AgreeExcept.find?_eq {name other : String} (hother : other ≠ name)
    {left right : List NamedClass} (h : AgreeExcept name left right) :
    find? other left = find? other right := by
  induction h with
  | nil => rfl
  | @cons first first' later later' hfirst _ ih =>
    unfold find? at ih ⊢
    rw [List.find?_cons, List.find?_cons, ← hfirst.1]
    by_cases hname : first.name = other
    · subst hname
      simp [hfirst.2 hother]
    · simpa [hname] using ih

end NamedClass

namespace Comparison

/-- There is one entry for every name, in the order of `Job.names`.  Its outcome
depends on the settings and on the first bytes under the name on each side, and
on nothing else; in particular, other bytes under one name change the entry of
that name only. -/
theorem entries_report (settings : Settings) :
    ∃ outcomeOf : (old new : Option Bytes) → Outcome, ∀ old new : List NamedClass,
      (Job.names old new).Nodup ∧
      (report settings old new).entries = (Job.names old new).map (fun name =>
        ⟨name, outcomeOf (NamedClass.find? name old) (NamedClass.find? name new)⟩) ∧
      (∀ entry ∈ (report settings old new).entries, Settles settings
        (NamedClass.find? entry.name old) (NamedClass.find? entry.name new) entry.outcome) ∧
      ∀ (name : String) (old' new' : List NamedClass), NamedClass.AgreeExcept name old old' →
        NamedClass.AgreeExcept name new new' →
        List.Forall₂ (fun entry entry' => entry.name = entry'.name ∧
            (entry.name ≠ name → entry.outcome = entry'.outcome))
          (report settings old new).entries (report settings old' new').entries := by
  have hentries (old new : List NamedClass) : (report settings old new).entries =
      (Job.names old new).map fun name =>
        ⟨name, (Job.named name old new).outcome settings⟩ := by
    rw [report_eq, Job.ofClasses_eq, List.map_map]
    rfl
  refine ⟨fun old new => Job.outcome settings ⟨"", old, new⟩, fun old new =>
    ⟨Job.nodup_names old new, hentries old new, ?_, ?_⟩⟩
  · intro entry hmem
    rw [hentries] at hmem
    obtain ⟨name, hname, rfl⟩ := List.mem_map.1 hmem
    exact Job.settles_outcome settings (Job.isEmpty_named_eq_false_iff.2 (Job.mem_names_iff.1 hname))
  · intro name old' new' hold hnew
    have hnames : Job.names old' new' = Job.names old new := by
      rw [Job.names, Job.names, hold.map_name_eq, hnew.map_name_eq]
    rw [hentries, hentries, hnames, List.forall₂_map_left_iff, List.forall₂_map_right_iff,
      List.forall₂_same]
    refine fun other _ => ⟨rfl, fun hother => ?_⟩
    simp only [Job.named, hold.find?_eq hother, hnew.find?_eq hother]

/-- Two classes `b` and two classes `a`, of which the first ones count, and a
class on the new side only.  Other bytes under `b` leave the rest as it was. -/
theorem entries_report_repeatedNames :
    let settings : Settings := ⟨false, 1, .everyRelease⟩
    let old : List NamedClass := [⟨"b", [0]⟩, ⟨"a", []⟩, ⟨"b", [1]⟩]
    let changed : List NamedClass := [⟨"b", [2]⟩, ⟨"a", []⟩, ⟨"b", []⟩]
    let new : List NamedClass := [⟨"a", [3]⟩, ⟨"c", []⟩, ⟨"a", []⟩]
    Job.names old new = ["b", "a", "c"] ∧ NamedClass.AgreeExcept "b" old changed ∧
      List.Forall₂ (fun entry entry' => entry.name = entry'.name ∧
          (entry.name ≠ "b" → entry.outcome = entry'.outcome))
        (report settings old new).entries (report settings changed new).entries := by
  intro settings old changed new
  have hagree : NamedClass.AgreeExcept "b" old changed :=
    .cons ⟨rfl, fun hname => (hname rfl).elim⟩
      (.cons ⟨rfl, fun _ => rfl⟩ (.cons ⟨rfl, fun hname => (hname rfl).elim⟩ .nil))
  obtain ⟨_, hreport⟩ := entries_report settings
  obtain ⟨-, -, -, hisolated⟩ := hreport old new
  exact ⟨by decide, hagree, hisolated "b" changed new hagree (.refl "b" new)⟩

end Comparison

end ClassDelta
