import ClassDelta.Proofs.Comparison.Outcomes
import ClassDelta.Proofs.Described.Members
import ClassDelta.Proofs.Diff.Completeness

/-!
# Comparing classes with themselves

Nothing has changed between a list of classes and itself, and the report says
so.  On the way there three things are looked up, and each look-up has to come
back with what it started from: the first class of a name is the same one on
both sides (`Job.named_self`), a member is matched with itself, as members of a
class that was read are distinct (`ClassifiedClass.memberChanges_self`), and
every aspect of it agrees with itself.

What is left for the report are the files that cannot be read:
`Comparison.report_self`.
-/

namespace ClassDelta

/-! ## One class -/

namespace ClassifiedClass

variable (includeSynthetics : Bool) (classified : ClassifiedClass)

theorem headerChanges_self : headerChanges includeSynthetics classified classified = [] := by
  have hnone := (ClassHeader.deltas_eq_nil_iff _ _).2 (.refl classified.info.header)
  rw [headerChanges, hnone]
  rfl

/-- Every member is found by its key, and what is found is the member. -/
theorem memberChanges_self {kind : MemberKind} {members : List (Member kind)}
    (hdistinct : (members.map Member.key).Nodup) :
    memberChanges includeSynthetics classified classified members members = [] := by
  rw [memberChanges, List.append_eq_nil_iff, List.filterMap_eq_nil_iff, List.filterMap_eq_nil_iff]
  constructor
  · intro member hmem
    have hpresent := isSome_findMember_iff.2 (List.mem_map_of_mem hmem)
    rw [removal?, if_pos hpresent]
  · intro member hmem
    have hfind := findMember_eq_some_of_mem hdistinct hmem
    have hnone := (Member.deltas_eq_nil_iff _ _).2 (.refl member)
    simp only [arrival?, hfind, hnone, List.isEmpty_nil, if_true]

/-- A class with distinct members differs in nothing from itself. -/
theorem changes_self (hdistinct : classified.info.HasDistinctMembers) :
    changes includeSynthetics classified classified = [] := by
  have hfields := memberChanges_self includeSynthetics classified (hdistinct .field)
  have hmethods := memberChanges_self includeSynthetics classified (hdistinct .method)
  rw [changes, headerChanges_self, List.nil_append, List.append_eq_nil_iff]
  exact ⟨hfields, hmethods⟩

end ClassifiedClass

/-! ## One job -/

namespace Job

theorem names_self (classes : List NamedClass) :
    names classes classes = (classes.map NamedClass.name).eraseDups := by
  rw [names, List.filter_eq_nil_iff.2, List.append_nil]
  intro name hmem
  rw [decide_eq_true_eq, Classical.not_not]
  exact List.mem_eraseDups.1 hmem

/-- The first class of a name is the same on both sides. -/
theorem named_self {name : String} {classes : List NamedClass}
    (hname : name ∈ classes.map NamedClass.name) :
    ∃ bytes, NamedClass.find? name classes = some bytes ∧
      named name classes classes = ⟨name, some bytes, some bytes⟩ := by
  obtain ⟨bytes, hbytes⟩ := Option.isSome_iff_exists.1 (NamedClass.isSome_find?_iff.2 hname)
  exact ⟨bytes, hbytes, by rw [named, hbytes]⟩

theorem outcome_self_of_ok {settings : Settings} {bytes : Bytes} {info : ClassInfo}
    (h : ClassInfo.parse settings.supported bytes = .ok info) (name : String) :
    outcome settings ⟨name, some bytes, some bytes⟩ = .compared [] := by
  have hnone := ClassifiedClass.changes_self settings.includeSynthetics (.ofInfo info)
    (ClassInfo.hasDistinctMembers_of_parse h)
  have hchanges : changes settings ⟨name, some bytes, some bytes⟩ = .ok [] := by
    rw [← hnone]
    simp only [changes, parseSide_of_ok h]
    rfl
  rw [outcome, hchanges]

/-- The old side is read first, so it is the one that fails. -/
theorem outcome_self_of_error {settings : Settings} {bytes : Bytes} {error : ParseError}
    (h : ClassInfo.parse settings.supported bytes = .error error) (name : String) :
    outcome settings ⟨name, some bytes, some bytes⟩ = .failed .old error := by
  simp only [outcome, changes, parseSide_of_error h]
  rfl

end Job

/-! ## The report -/

namespace Comparison

/-- A list of classes that is compared with itself has one entry for every name,
and no entry has a change.  An entry says that the class was compared if its
first file can be read, and otherwise that reading the old one fails, and how. -/
theorem report_self (settings : Settings) (classes : List NamedClass) :
    (report settings classes classes).entries.map Entry.name =
        (classes.map NamedClass.name).eraseDups ∧
      ((report settings classes classes).entries.map Entry.name).Nodup ∧
      (∀ entry ∈ (report settings classes classes).entries,
        ∃ bytes, NamedClass.find? entry.name classes = some bytes ∧
          match ClassInfo.parse settings.supported bytes with
          | .ok _ => entry.outcome = .compared []
          | .error error => entry.outcome = .failed .old error) ∧
      (report settings classes classes).summary.changed = 0 := by
  have hentries : (report settings classes classes).entries =
      (classes.map NamedClass.name).eraseDups.map fun name =>
        ⟨name, (Job.named name classes classes).outcome settings⟩ := by
    rw [report_eq, Job.ofClasses_eq, Job.names_self, List.map_map]
    rfl
  have hnames : (report settings classes classes).entries.map Entry.name =
      (classes.map NamedClass.name).eraseDups := by
    rw [hentries, List.map_map]
    exact List.map_id _
  have houtcomes : ∀ entry ∈ (report settings classes classes).entries,
      ∃ bytes, NamedClass.find? entry.name classes = some bytes ∧
        match ClassInfo.parse settings.supported bytes with
        | .ok _ => entry.outcome = .compared []
        | .error error => entry.outcome = .failed .old error := by
    intro entry hmem
    rw [hentries] at hmem
    obtain ⟨name, hname, rfl⟩ := List.mem_map.1 hmem
    obtain ⟨bytes, hfind, hjob⟩ := Job.named_self (List.mem_eraseDups.1 hname)
    refine ⟨bytes, hfind, ?_⟩
    cases hparse : ClassInfo.parse settings.supported bytes with
    | ok info => rw [hjob, Job.outcome_self_of_ok hparse]
    | error error => rw [hjob, Job.outcome_self_of_error hparse]
  refine ⟨hnames, hnames ▸ nodup_eraseDups _, houtcomes, ?_⟩
  rw [Report.summary, List.countP_eq_zero]
  intro entry hmem
  obtain ⟨bytes, -, hentry⟩ := houtcomes entry hmem
  split at hentry <;> simp [hentry, Outcome.isChanged]

/-- Two classes `b`, of which the first one counts on both sides. -/
example :
    let settings : Settings := ⟨false, 1, .everyRelease⟩
    let classes : List NamedClass := [⟨"b", [0]⟩, ⟨"a", []⟩, ⟨"b", []⟩]
    report settings classes classes =
      ⟨[⟨"b", .failed .old (.truncated 0 4 1)⟩, ⟨"a", .failed .old (.truncated 0 4 0)⟩]⟩ := by
  decide

end Comparison

end ClassDelta
