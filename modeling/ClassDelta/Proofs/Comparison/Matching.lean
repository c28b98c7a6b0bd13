import ClassDelta.Comparison.Basic

/-!
# Matching classes by name

`Job.ofClasses` drops classes whose name came before on their side, and then
goes through the names of both sides, taking off what it finds.  The statements
here say what comes out, without the taking off: `Job.ofClasses_eq` lists the
names of the jobs, and every job has the first class of its name on each side.

A name is left out of the second half because it was in the first one, and a
name that was taken is found no more.  Both come down to the fact that leaving
out repetitions and leaving out names can be done in either order
(`eraseDups_filter`).
-/

namespace ClassDelta

/-! ## Lists without repetitions -/

section EraseDups

variable {α : Type} [DecidableEq α]

/-- The induction follows `List.eraseDups_cons`, which takes the repetitions of
the first element out of the rest before it goes on. -/
theorem eraseDups_filter (keep : α → Bool) (list : List α) :
    (list.filter keep).eraseDups = list.eraseDups.filter keep := by
  induction hlength : list.length using Nat.strongRecOn generalizing list with
  | ind length ih =>
    subst hlength
    cases list with
    | nil => rfl
    | cons first later =>
      have hshorter : (later.filter fun other => !other == first).length <
          (first :: later).length :=
        Nat.lt_succ_of_le (List.length_filter_le _ _)
      have hlater := ih _ hshorter _ rfl
      rw [List.eraseDups_cons]
      by_cases hkeep : keep first
      · rw [List.filter_cons_of_pos hkeep, List.filter_cons_of_pos hkeep, List.eraseDups_cons,
          ← hlater, List.filter_filter, List.filter_filter]
        simp only [Bool.and_comm]
      · rw [List.filter_cons_of_neg hkeep, List.filter_cons_of_neg hkeep, ← hlater,
          List.filter_filter]
        congr 1
        refine List.filter_congr fun other _ => ?_
        by_cases hsame : other = first
        · subst hsame
          simp [hkeep]
        · simp [hsame]

theorem eraseDups_cons_eq (first : α) (later : List α) :
    (first :: later).eraseDups = first :: later.eraseDups.filter (fun other => !other == first) := by
  rw [List.eraseDups_cons, eraseDups_filter]

theorem nodup_eraseDups (list : List α) : list.eraseDups.Nodup := by
  induction list with
  | nil => exact List.nodup_nil
  | cons first later ih =>
    rw [eraseDups_cons_eq, List.nodup_cons]
    exact ⟨by simp, ih.filter _⟩

theorem eraseDups_of_nodup {list : List α} (h : list.Nodup) : list.eraseDups = list := by
  induction list with
  | nil => rfl
  | cons first later ih =>
    obtain ⟨hfirst, hlater⟩ := List.nodup_cons.1 h
    rw [eraseDups_cons_eq, ih hlater, List.filter_eq_self.2]
    intro other hmem
    have hother : other ≠ first := fun heq => hfirst (heq ▸ hmem)
    simp [hother]

end EraseDups

/-! ## Finding classes -/

namespace NamedClass

theorem isSome_find?_iff {name : String} {classes : List NamedClass} :
    (find? name classes).isSome ↔ name ∈ classes.map NamedClass.name := by
  simp [find?]

theorem find?_without {name other : String} (classes : List NamedClass) :
    find? other (without name classes) = if other = name then none else find? other classes := by
  unfold find? without
  rw [List.find?_filter]
  split
  · rename_i hsame
    subst hsame
    simp
  · rename_i hother
    congr 2
    funext candidate
    by_cases hname : candidate.name = other
    · simp [hname, hother]
    · simp [hname]

theorem map_name_without (name : String) (classes : List NamedClass) :
    (without name classes).map NamedClass.name =
      (classes.map NamedClass.name).filter fun other => !other == name := by
  rw [List.filter_map, without]
  congr 1
  refine List.filter_congr fun candidate _ => ?_
  rw [decide_not]
  rfl

theorem length_without_lt (first : NamedClass) (name : String) (later : List NamedClass) :
    (without name later).length < (first :: later).length :=
  Nat.lt_succ_of_le (List.length_filter_le _ _)

theorem firsts_cons (first : NamedClass) (later : List NamedClass) :
    firsts (first :: later) = first :: firsts (without first.name later) := by
  rw [firsts, List.eraseDupsBy_cons, firsts, without]
  simp

/-- Which class is the first of its name is decided by the names alone. -/
theorem map_name_firsts : (classes : List NamedClass) →
    (firsts classes).map NamedClass.name = (classes.map NamedClass.name).eraseDups
  | [] => rfl
  | first :: later => by
    have hlater := map_name_firsts (without first.name later)
    rw [firsts_cons, List.map_cons, List.map_cons, hlater, map_name_without, List.eraseDups_cons]
termination_by classes => classes.length
decreasing_by exact length_without_lt first first.name later

/-- What comes first of a name is still there. -/
theorem find?_firsts (name : String) : (classes : List NamedClass) →
    find? name (firsts classes) = find? name classes
  | [] => rfl
  | first :: later => by
    have hlater := find?_firsts name (without first.name later)
    rw [find?_without] at hlater
    unfold find? at hlater ⊢
    rw [firsts_cons, List.find?_cons, List.find?_cons]
    by_cases hname : first.name = name
    · simp [hname]
    · have hother : ¬ name = first.name := fun heq => hname heq.symm
      rw [if_neg hother] at hlater
      simpa [hname] using hlater
termination_by classes => classes.length
decreasing_by exact length_without_lt first first.name later

end NamedClass

/-! ## Pairing up -/

namespace Job

theorem isEmpty_named_eq_false_iff {name : String} {old new : List NamedClass} :
    (named name old new).isEmpty = false ↔
      name ∈ old.map NamedClass.name ∨ name ∈ new.map NamedClass.name := by
  rw [← NamedClass.isSome_find?_iff, ← NamedClass.isSome_find?_iff, isEmpty, named]
  cases NamedClass.find? name old <;> cases NamedClass.find? name new <;> simp

/-- A job takes nothing away from jobs of other names, and leaves nothing to
later ones of its own. -/
theorem named_without {name other : String} (old new : List NamedClass) :
    named other (NamedClass.without name old) (NamedClass.without name new) =
      if other = name then ⟨other, none, none⟩ else named other old new := by
  unfold named
  rw [NamedClass.find?_without, NamedClass.find?_without]
  split <;> rfl

/-- The names that lead to something have one job each, in the order of their
first occurrence. -/
theorem pairUp_eq (names : List String) (old new : List NamedClass) :
    pairUp names old new =
      (names.eraseDups.filter fun name => !(named name old new).isEmpty).map
        fun name => named name old new := by
  induction names generalizing old new with
  | nil => rfl
  | cons name later ih =>
    have hkept : (later.eraseDups.filter fun other =>
          !(named other (NamedClass.without name old) (NamedClass.without name new)).isEmpty) =
        (later.eraseDups.filter fun other => !other == name).filter
          fun other => !(named other old new).isEmpty := by
      rw [List.filter_filter]
      refine List.filter_congr fun other _ => ?_
      rw [named_without]
      by_cases hsame : other = name
      · simp [hsame, isEmpty]
      · simp [hsame]
    have hothers : pairUp later (NamedClass.without name old) (NamedClass.without name new) =
        ((later.eraseDups.filter fun other => !other == name).filter
          fun other => !(named other old new).isEmpty).map fun other => named other old new := by
      rw [ih, hkept]
      refine List.map_congr_left fun other hmem => ?_
      have hother : other ≠ name := by
        have hkeep := (List.mem_filter.1 (List.mem_filter.1 hmem).1).2
        simpa using hkeep
      rw [named_without, if_neg hother]
    rw [pairUp, eraseDups_cons_eq, hothers]
    cases hempty : (named name old new).isEmpty with
    | true => simp [hempty]
    | false => simp [hempty]

/-- The names that are compared: those of the old side, then those that only the
new side has, each in the order of its first occurrence there. -/
def names (old new : List NamedClass) : List String :=
  (old.map NamedClass.name).eraseDups ++
    (new.map NamedClass.name).eraseDups.filter fun name => name ∉ old.map NamedClass.name

theorem nodup_names (old new : List NamedClass) : (names old new).Nodup := by
  refine List.nodup_append.2 ⟨nodup_eraseDups _, (nodup_eraseDups _).filter _, ?_⟩
  rintro name hold other hnew rfl
  rw [List.mem_eraseDups] at hold
  have hmissing := (List.mem_filter.1 hnew).2
  simp only [decide_eq_true_eq] at hmissing
  exact hmissing hold

theorem mem_names_iff {name : String} {old new : List NamedClass} :
    name ∈ names old new ↔ name ∈ old.map NamedClass.name ∨ name ∈ new.map NamedClass.name := by
  rw [names, List.mem_append, List.mem_filter, List.mem_eraseDups, List.mem_eraseDups,
    decide_eq_true_eq]
  by_cases hold : name ∈ old.map NamedClass.name
  · simp only [hold, true_or]
  · simp only [hold, false_or, not_false_eq_true, and_true]

/-- Going through the names of both sides in turn meets each of them for the
first time in this order. -/
theorem eraseDups_append_eq_names (old new : List NamedClass) :
    ((old.map NamedClass.name).eraseDups ++ (new.map NamedClass.name).eraseDups).eraseDups =
      names old new := by
  rw [List.eraseDups_append, eraseDups_of_nodup (nodup_eraseDups _), names, List.removeAll,
    eraseDups_of_nodup ((nodup_eraseDups _).filter _)]
  congr 1
  refine List.filter_congr fun name _ => ?_
  rw [List.elem_eq_mem, ← decide_not]
  simp only [List.mem_eraseDups]

/-- There is one job for every name, with the first class of the name on each
side. -/
theorem ofClasses_eq (old new : List NamedClass) :
    ofClasses old new = (names old new).map fun name => named name old new := by
  have hfirsts (name : String) :
      named name (NamedClass.firsts old) (NamedClass.firsts new) = named name old new := by
    rw [named, NamedClass.find?_firsts, NamedClass.find?_firsts, named]
  unfold ofClasses
  rw [pairUp_eq, NamedClass.map_name_firsts, NamedClass.map_name_firsts,
    eraseDups_append_eq_names, List.filter_eq_self.2]
  · exact List.map_congr_left fun name _ => hfirsts name
  · intro name hmem
    rw [hfirsts, isEmpty_named_eq_false_iff.2 (mem_names_iff.1 hmem)]
    rfl

end Job

end ClassDelta
