import ClassDelta.Archive.Collector
import ClassDelta.Proofs.Archive.EntryFilter
import ClassDelta.Proofs.Comparison.Matching
import ClassDelta.Proofs.Stateful
import Mathlib.Data.List.Basic

/-!
# Which entry a class comes from

Several entries of an archive can give a class of the same name, under different
extensions and more than once under each.  `EntryFilter.Keeps` says which of
them counts: of those with the lowest rank the earliest.

A collector finds it without looking back.  What it knows of a name is the
position of the first class of that name and the lowest rank so far.  Entries of
a lower rank replace the bytes at the position, those of the same rank are put
behind, where they do not count, and the others are left out.
`Collector.Attempt.Goes` are the things that can happen to one entry, also to one
that cannot be read.  `Collector.Gathers` is what is true at any time,
`Collector.add_gathers` is one entry, and `Collector.addAll_gathers` are all of them.

The main statement is `Collector.firsts_addAll`, on what is left when only the
first class of each name is taken.
-/

namespace ClassDelta

/-- Something found under a path, with bytes that can be read. -/
structure FoundEntry where
  path : String
  bytes : Bytes
deriving DecidableEq

/-! ## The entry that counts -/

namespace EntryFilter

variable {π : Type} [PathPattern π]

/-- The class names of those entries that have one. -/
def classNames (filter : EntryFilter π) (entries : List FoundEntry) : List String :=
  entries.filterMap fun entry => (filter.classify entry.path).map Prod.fst

/-- An entry between others gives the name with the lowest rank, and no entry in
front of it has the same rank. -/
structure IsPreferred (filter : EntryFilter π) (name : String) (rank : Nat)
    (before : List FoundEntry) (entry : FoundEntry) (after : List FoundEntry) : Prop where
  classify : filter.classify entry.path = some (name, rank)
  before : ∀ earlier ∈ before, ∀ other : Nat,
    filter.classify earlier.path = some (name, other) → rank < other
  after : ∀ later ∈ after, ∀ other : Nat,
    filter.classify later.path = some (name, other) → rank ≤ other

/-- The bytes are those of the earliest entry with the lowest rank for the name. -/
def Keeps (filter : EntryFilter π) (entries : List FoundEntry) (name : String) (rank : Nat)
    (bytes : Bytes) : Prop :=
  ∃ before entry after, entries = before ++ entry :: after ∧ entry.bytes = bytes ∧
    filter.IsPreferred name rank before entry after

variable {filter : EntryFilter π} {entries : List FoundEntry} {added : FoundEntry} {name : String}
  {rank : Nat} {bytes : Bytes}

theorem classNames_append (before after : List FoundEntry) :
    filter.classNames (before ++ after) = filter.classNames before ++ filter.classNames after :=
  List.filterMap_append

theorem classNames_of_none (h : filter.classify added.path = none) :
    filter.classNames [added] = [] := by
  simp [classNames, h]

theorem classNames_of_some (h : filter.classify added.path = some (name, rank)) :
    filter.classNames [added] = [name] := by
  simp [classNames, h]

theorem mem_classNames {entry : FoundEntry} (hmem : entry ∈ entries)
    (h : filter.classify entry.path = some (name, rank)) : name ∈ filter.classNames entries :=
  List.mem_filterMap.2 ⟨entry, hmem, by rw [h]; rfl⟩

/-- No other entry has a lower rank. -/
theorem Keeps.rank_le (h : filter.Keeps entries name rank bytes) {entry : FoundEntry} {other : Nat}
    (hmem : entry ∈ entries) (hentry : filter.classify entry.path = some (name, other)) :
    rank ≤ other := by
  obtain ⟨before, kept, after, rfl, -, hpreferred⟩ := h
  rcases List.mem_append.1 hmem with hbefore | hmem
  · exact Nat.le_of_lt (hpreferred.before entry hbefore other hentry)
  · rcases List.mem_cons.1 hmem with rfl | hafter
    · rw [hpreferred.classify] at hentry
      cases hentry
      exact Nat.le_refl _
    · exact hpreferred.after entry hafter other hentry

/-- An entry that comes later counts only if its rank is lower. -/
theorem Keeps.append (h : filter.Keeps entries name rank bytes)
    (hadded : ∀ other : Nat, filter.classify added.path = some (name, other) → rank ≤ other) :
    filter.Keeps (entries ++ [added]) name rank bytes := by
  obtain ⟨before, kept, after, rfl, hbytes, hpreferred⟩ := h
  refine ⟨before, kept, after ++ [added], by simp, hbytes, hpreferred.classify,
    hpreferred.before, fun later hmem => ?_⟩
  rcases List.mem_append.1 hmem with hafter | hlast
  · exact hpreferred.after later hafter
  · obtain rfl := List.mem_singleton.1 hlast
    exact hadded

/-- An entry with a rank below all earlier ones counts from then on. -/
theorem keeps_last (hadded : filter.classify added.path = some (name, rank))
    (hbefore : ∀ earlier ∈ entries, ∀ other : Nat,
      filter.classify earlier.path = some (name, other) → rank < other) :
    filter.Keeps (entries ++ [added]) name rank added.bytes :=
  ⟨entries, added, [], rfl, rfl, hadded, hbefore, fun _ hmem => nomatch hmem⟩

/-- An entry whose path ends in `.class` counts before all others of its name. -/
theorem Keeps.bytes_eq (h : filter.Keeps entries name rank bytes) (hbuilt : filter.IsBuilt)
    {entry : FoundEntry}
    (hfind : entries.find? (fun entry => entry.path = name ++ ".class") = some entry)
    (hincluded : filter.isExcluded entry.path = false) : entry.bytes = bytes := by
  have hpath : entry.path = name ++ ".class" := by simpa using List.find?_some hfind
  rw [hpath] at hincluded
  obtain ⟨before, kept, after, rfl, rfl, hpreferred⟩ := id h
  have hstem := isStem_of_classify hpreferred.classify
  have hclass {other : FoundEntry} (hother : other.path = name ++ ".class") :
      filter.classify other.path = some (name, 0) := by
    rw [hother]
    exact hbuilt.classify_eq_zero_iff.2 ⟨hincluded, rfl, hstem⟩
  -- The entry that counts has the rank 0, too, so it is the first one with this path.
  have hrank : rank = 0 :=
    Nat.le_zero.1 (h.rank_le (List.mem_of_find?_eq_some hfind) (hclass hpath))
  subst hrank
  have hkept : kept.path = name ++ ".class" :=
    (hbuilt.classify_eq_zero_iff.1 hpreferred.classify).2.1
  have hbefore : before.find? (fun entry => entry.path = name ++ ".class") = none := by
    rw [List.find?_eq_none]
    intro earlier hmem hearlier
    exact Nat.not_lt_zero _ (hpreferred.before earlier hmem 0 (hclass (by simpa using hearlier)))
  rw [List.find?_append, hbefore, Option.none_or, List.find?_cons, decide_eq_true hkept] at hfind
  cases hfind
  rfl

end EntryFilter

/-! ## Classes at positions -/

section EraseDups

variable {α : Type} [DecidableEq α]

theorem eraseDups_append_congr {left right : List α} (h : left.eraseDups = right.eraseDups)
    (later : List α) : (left ++ later).eraseDups = (right ++ later).eraseDups := by
  have hmem (element : α) : element ∈ left ↔ element ∈ right := by
    rw [← List.mem_eraseDups, h, List.mem_eraseDups]
  rw [List.eraseDups_append, List.eraseDups_append, h]
  congr 2
  refine List.filter_congr fun element _ => ?_
  simp [hmem]

theorem eraseDups_append_of_mem {element : α} {list : List α} (h : element ∈ list) :
    (list ++ [element]).eraseDups = list.eraseDups := by
  rw [List.eraseDups_append]
  simp [List.removeAll, h]

end EraseDups

namespace NamedClass

theorem find?_cons (name : String) (first : NamedClass) (later : List NamedClass) :
    find? name (first :: later) =
      if first.name = name then some first.bytes else find? name later := by
  unfold find?
  rw [List.find?_cons]
  by_cases hname : first.name = name
  · simp [hname]
  · simp [hname]

/-- Where names are distinct, every class is found under its own. -/
theorem find?_of_mem {classes : List NamedClass} (hdistinct : (classes.map NamedClass.name).Nodup)
    {found : NamedClass} (hmem : found ∈ classes) : find? found.name classes = some found.bytes := by
  induction classes with
  | nil => cases hmem
  | cons first later ih =>
    rw [List.map_cons, List.nodup_cons] at hdistinct
    rw [find?_cons]
    rcases List.mem_cons.1 hmem with rfl | hlater
    · rw [if_pos rfl]
    · have hother : ¬ first.name = found.name := fun heq =>
        hdistinct.1 (heq ▸ List.mem_map_of_mem hlater)
      rw [if_neg hother, ih hdistinct.2 hlater]

theorem find?_append (name : String) (classes : List NamedClass) (added : NamedClass) :
    find? name (classes ++ [added]) =
      (find? name classes).or (if added.name = name then some added.bytes else none) := by
  unfold find?
  rw [List.find?_append, Option.map_or, List.find?_singleton]
  simp only [decide_eq_true_eq, apply_ite (Option.map NamedClass.bytes), Option.map_none,
    Option.map_some]

theorem map_name_modify (position : Nat) (bytes : Bytes) (classes : List NamedClass) :
    (classes.modify position fun found => { found with bytes }).map NamedClass.name =
      classes.map NamedClass.name := by
  induction classes generalizing position with
  | nil => rw [List.modify_nil]
  | cons first later ih =>
    rw [List.modify_cons]
    split
    · rfl
    · rw [List.map_cons, List.map_cons, ih]

/-- New bytes for the first class of a name are new bytes for that name only. -/
theorem find?_modify (name other : String) (bytes : Bytes) (classes : List NamedClass) :
    find? other (classes.modify ((classes.map NamedClass.name).idxOf name)
        fun found => { found with bytes }) =
      if other = name then (find? name classes).map fun _ => bytes else find? other classes := by
  induction classes with
  | nil => simp [find?]
  | cons first later ih =>
    rw [List.map_cons, List.idxOf_cons]
    by_cases hfirst : first.name = name
    · rw [beq_iff_eq.2 hfirst, cond_true, List.modify_zero_cons, find?_cons, find?_cons, find?_cons,
        if_pos hfirst]
      by_cases hother : other = name
      · rw [if_pos hother, hother, if_pos hfirst, Option.map_some]
      · have hne : ¬ first.name = other := fun heq => hother (heq.symm.trans hfirst)
        rw [if_neg hother, if_neg hne, if_neg hne]
    · rw [beq_false_of_ne hfirst, cond_false, List.modify_succ_cons, find?_cons, find?_cons,
        find?_cons, if_neg hfirst, ih]
      by_cases hother : other = name
      · have hne : ¬ first.name = other := fun heq => hfirst (heq.trans hother)
        rw [if_pos hother, if_neg hne, if_pos hother]
      · rw [if_neg hother, if_neg hother]

end NamedClass

/-! ## One entry -/

namespace Collector

/-- The path of an entry, and what an attempt to read it gives. -/
structure Attempt (ε : Type) where
  path : String
  read : Except ε Bytes
deriving DecidableEq

namespace Attempt

variable {ε π : Type} [PathPattern π] {filter : EntryFilter π} {attempt : Attempt ε} {before : Collector}
  {name : String} {rank : Nat} {place : SeenClass}

/-- Attempt to add the entry. -/
def perform (filter : EntryFilter π) (attempt : Attempt ε) : EStateM ε Collector Unit :=
  add filter attempt.path fun _ => attempt.read

/-- What can come of an attempt. -/
inductive Goes (filter : EntryFilter π) (attempt : Attempt ε) (before : Collector) : Prop
  /-- It is no class, or one that is shadowed. -/
  | skipped (message : String)
      (hstep : attempt.perform filter before = .ok () (before.note message))
      (hshadowed : ∀ name rank, filter.classify attempt.path = some (name, rank) →
        ∃ place, before.seen.lookup name = some place ∧ place.rank < rank)
  /-- It cannot be read, and the name was seen before. -/
  | failed (name : String) (rank : Nat) (error : ε) (place : SeenClass) (later : Collector)
      (hstep : attempt.perform filter before = .error error later)
      (hclassify : filter.classify attempt.path = some (name, rank))
      (hread : attempt.read = .error error) (hseen : before.seen.lookup name = some place)
      (hclasses : later.classes = before.classes) (hsame : later.seen = before.seen)
  /-- It cannot be read, and the name is seen for the first time. -/
  | failedFirst (name : String) (rank : Nat) (error : ε)
      (hstep : attempt.perform filter before =
        .error error (before.remember name ⟨before.classes.length, rank⟩))
      (hclassify : filter.classify attempt.path = some (name, rank))
      (hread : attempt.read = .error error) (hnew : before.seen.lookup name = none)
  /-- It is the first class of its name. -/
  | first (name : String) (rank : Nat) (bytes : Bytes)
      (hstep : attempt.perform filter before =
        .ok () ((before.remember name ⟨before.classes.length, rank⟩).append name bytes))
      (hclassify : filter.classify attempt.path = some (name, rank))
      (hread : attempt.read = .ok bytes) (hnew : before.seen.lookup name = none)
  /-- It takes the place of a class of the same name. -/
  | better (name : String) (rank : Nat) (bytes : Bytes) (place : SeenClass) (message : String)
      (hstep : attempt.perform filter before = .ok ()
        (((before.note message).replace place.position bytes).remember name ⟨place.position, rank⟩))
      (hclassify : filter.classify attempt.path = some (name, rank))
      (hread : attempt.read = .ok bytes) (hseen : before.seen.lookup name = some place)
      (hrank : rank < place.rank)
  /-- It is a further class of its name. -/
  | further (name : String) (rank : Nat) (bytes : Bytes) (place : SeenClass)
      (hstep : attempt.perform filter before = .ok () (before.append name bytes))
      (hclassify : filter.classify attempt.path = some (name, rank))
      (hread : attempt.read = .ok bytes) (hseen : before.seen.lookup name = some place)
      (hrank : place.rank = rank)

theorem perform_of_unseen {error : ε} (hclassify : filter.classify attempt.path = some (name, rank))
    (hread : attempt.read = .error error) (hnew : before.seen.lookup name = none) :
    attempt.perform filter before =
      .error error (before.remember name ⟨before.classes.length, rank⟩) := by
  simp only [perform, add, hclassify, hnew, hread]

theorem perform_of_better {bytes : Bytes}
    (hclassify : filter.classify attempt.path = some (name, rank))
    (hread : attempt.read = .ok bytes) (hseen : before.seen.lookup name = some place)
    (hrank : rank < place.rank) : ∃ message, attempt.perform filter before = .ok ()
      (((before.note message).replace place.position bytes).remember name
        ⟨place.position, rank⟩) := by
  refine ⟨"Entry " ++ attempt.path ++ " takes precedence for class " ++ name, ?_⟩
  simp only [perform, add, hclassify, hseen, if_pos hrank, hread]

theorem goes (filter : EntryFilter π) (attempt : Attempt ε) (before : Collector) :
    attempt.Goes filter before := by
  cases hclassify : filter.classify attempt.path with
  | none =>
    refine .skipped ("Skipping entry " ++ attempt.path) ?_ fun name rank hsome => ?_
    · simp only [perform, add, hclassify]
    · rw [hclassify] at hsome
      cases hsome
  | some found =>
    obtain ⟨name, rank⟩ := found
    cases hseen : before.seen.lookup name with
    | none =>
      cases hread : attempt.read with
      | ok bytes =>
        refine .first name rank bytes ?_ hclassify hread hseen
        simp only [perform, add, hclassify, hseen, hread]
      | error error =>
        have hstep := perform_of_unseen hclassify hread hseen
        exact .failedFirst name rank error hstep hclassify hread hseen
    | some place =>
      rcases Nat.lt_trichotomy rank place.rank with hbetter | hsame | hworse
      · cases hread : attempt.read with
        | ok bytes =>
          obtain ⟨message, hstep⟩ := perform_of_better hclassify hread hseen hbetter
          exact .better name rank bytes place message hstep hclassify hread hseen hbetter
        | error error =>
          have hstep : attempt.perform filter before = .error error (before.note
              ("Entry " ++ attempt.path ++ " takes precedence for class " ++ name)) := by
            simp only [perform, add, hclassify, hseen, if_pos hbetter, hread]
          exact .failed name rank error place _ hstep hclassify hread hseen rfl rfl
      · have hbetter : ¬ rank < place.rank := by omega
        have hworse : ¬ place.rank < rank := by omega
        cases hread : attempt.read with
        | ok bytes =>
          refine .further name rank bytes place ?_ hclassify hread hseen hsame.symm
          simp only [perform, add, hclassify, hseen, if_neg hbetter, if_neg hworse, hread]
        | error error =>
          refine .failed name rank error place before ?_ hclassify hread hseen rfl rfl
          simp only [perform, add, hclassify, hseen, if_neg hbetter, if_neg hworse, hread]
      · have hbetter : ¬ rank < place.rank := by omega
        refine .skipped ("Skipping entry " ++ attempt.path ++ " shadowed by another extension") ?_
          fun name' rank' hsome => ?_
        · simp only [perform, add, hclassify, hseen, if_neg hbetter, if_pos hworse]
        · rw [hclassify] at hsome
          cases hsome
          exact ⟨place, hseen, hworse⟩

end Attempt

end Collector

/-! ## What a collector knows -/

namespace Collector

variable {π : Type} [PathPattern π]

/-- What a collector has found in some entries, and what it remembers of them. -/
structure Gathers (filter : EntryFilter π) (entries : List FoundEntry) (collector : Collector) :
    Prop where
  /-- The names have come up in the order of the entries. -/
  names : (collector.classes.map NamedClass.name).eraseDups =
    (filter.classNames entries).eraseDups
  unseen : ∀ name : String, collector.seen.lookup name = none → name ∉ filter.classNames entries
  /-- A name is remembered with the position of its first class. -/
  position : ∀ (name : String) (place : SeenClass), collector.seen.lookup name = some place →
    place.position = (collector.classes.map NamedClass.name).idxOf name
  /-- Its first class has the bytes that count, and its rank is theirs. -/
  kept : ∀ (name : String) (place : SeenClass), collector.seen.lookup name = some place →
    ∃ bytes, NamedClass.find? name collector.classes = some bytes ∧
      filter.Keeps entries name place.rank bytes

theorem gathers_fresh (filter : EntryFilter π) : fresh.Gathers filter [] where
  names := rfl
  unseen := fun _ _ => List.not_mem_nil
  position := fun _ _ h => nomatch h
  kept := fun _ _ h => nomatch h

section Steps

variable {filter : EntryFilter π} {entries : List FoundEntry} {added : FoundEntry}
  {collector : Collector} {name : String} {rank : Nat} {place : SeenClass}

theorem Gathers.note (h : collector.Gathers filter entries) (message : String) :
    (collector.note message).Gathers filter entries :=
  ⟨h.names, h.unseen, h.position, h.kept⟩

theorem Gathers.mem_names_iff (h : collector.Gathers filter entries) (name : String) :
    name ∈ collector.classes.map NamedClass.name ↔ name ∈ filter.classNames entries := by
  rw [← List.mem_eraseDups, h.names, List.mem_eraseDups]

theorem Gathers.mem_of_seen (h : collector.Gathers filter entries)
    (hseen : collector.seen.lookup name = some place) :
    name ∈ collector.classes.map NamedClass.name := by
  obtain ⟨bytes, hfind, -⟩ := h.kept name place hseen
  rw [← NamedClass.isSome_find?_iff, hfind]
  rfl

/-- The position of a name that was seen is the one of a class. -/
theorem Gathers.position_lt (h : collector.Gathers filter entries)
    (hseen : collector.seen.lookup name = some place) :
    place.position < collector.classes.length := by
  rw [h.position name place hseen, ← List.length_map (f := NamedClass.name)]
  exact List.idxOf_lt_length_of_mem (h.mem_of_seen hseen)

/-- An entry that is no class file, or whose rank is too high, changes nothing. -/
theorem Gathers.skip (h : collector.Gathers filter entries)
    (hskip : ∀ (name : String) (rank : Nat), filter.classify added.path = some (name, rank) →
      ∃ place, collector.seen.lookup name = some place ∧ place.rank < rank) :
    collector.Gathers filter (entries ++ [added]) := by
  have hnames : (filter.classNames (entries ++ [added])).eraseDups =
      (filter.classNames entries).eraseDups := by
    rw [EntryFilter.classNames_append]
    cases hclassify : filter.classify added.path with
    | none => rw [EntryFilter.classNames_of_none hclassify, List.append_nil]
    | some found =>
      obtain ⟨name, rank⟩ := found
      obtain ⟨place, hseen, -⟩ := hskip name rank hclassify
      rw [EntryFilter.classNames_of_some hclassify]
      exact eraseDups_append_of_mem ((h.mem_names_iff name).1 (h.mem_of_seen hseen))
  refine ⟨h.names.trans hnames.symm, fun name hseen => ?_, h.position, fun name place hseen => ?_⟩
  · rw [← List.mem_eraseDups, hnames, List.mem_eraseDups]
    exact h.unseen name hseen
  · obtain ⟨bytes, hfind, hkeeps⟩ := h.kept name place hseen
    refine ⟨bytes, hfind, hkeeps.append fun other hother => ?_⟩
    obtain ⟨place', hseen', hlt⟩ := hskip name other hother
    rw [hseen] at hseen'
    cases hseen'
    exact Nat.le_of_lt hlt

theorem lookup_remember (collector : Collector) (name other : String) (place : SeenClass) :
    (collector.remember name place).seen.lookup other =
      if other = name then some place else collector.seen.lookup other := by
  rw [remember, List.lookup_cons]
  by_cases hother : other = name
  · rw [if_pos hother, beq_iff_eq.2 hother]
  · rw [if_neg hother, beq_false_of_ne hother]

/-- A name that is known after another one was remembered is that one, or it was known
before. -/
theorem lookup_remember_eq_some {other : String} {later : SeenClass}
    (h : (collector.remember name place).seen.lookup other = some later) :
    other = name ∧ later = place ∨ other ≠ name ∧ collector.seen.lookup other = some later := by
  rw [lookup_remember] at h
  split at h
  · rename_i heq
    exact .inl ⟨heq, (Option.some.inj h).symm⟩
  · rename_i hne
    exact .inr ⟨hne, h⟩

theorem lookup_remember_eq_none {other : String}
    (h : (collector.remember name place).seen.lookup other = none) :
    other ≠ name ∧ collector.seen.lookup other = none := by
  rw [lookup_remember] at h
  split at h
  · cases h
  · rename_i hne
    exact ⟨hne, h⟩

/-- The names of the entries when one more class has been put behind the others. -/
theorem Gathers.names_append (h : collector.Gathers filter entries)
    (hclassify : filter.classify added.path = some (name, rank)) (bytes : Bytes) :
    ((collector.classes ++ [NamedClass.mk name bytes]).map NamedClass.name).eraseDups =
      (filter.classNames (entries ++ [added])).eraseDups := by
  rw [List.map_append, EntryFilter.classNames_append, EntryFilter.classNames_of_some hclassify]
  exact eraseDups_append_congr h.names [name]

theorem Gathers.unseen_append (h : collector.Gathers filter entries)
    (hclassify : filter.classify added.path = some (name, rank)) {other : String}
    (hother : other ≠ name) (hseen : collector.seen.lookup other = none) :
    other ∉ filter.classNames (entries ++ [added]) := by
  rw [EntryFilter.classNames_append, EntryFilter.classNames_of_some hclassify, List.mem_append,
    List.mem_singleton, not_or]
  exact ⟨h.unseen other hseen, hother⟩

/-- Entries of other names leave alone what counts for a name. -/
theorem Gathers.kept_append (h : collector.Gathers filter entries)
    (hclassify : filter.classify added.path = some (name, rank)) {other : String}
    (hother : other ≠ name) (hseen : collector.seen.lookup other = some place) :
    ∃ bytes, NamedClass.find? other collector.classes = some bytes ∧
      filter.Keeps (entries ++ [added]) other place.rank bytes := by
  obtain ⟨bytes, hfind, hkeeps⟩ := h.kept other place hseen
  refine ⟨bytes, hfind, hkeeps.append fun other' hadded => ?_⟩
  rw [hclassify] at hadded
  cases hadded
  exact absurd rfl hother

/-- The first entry of a name is put behind the classes found so far. -/
theorem Gathers.append_new (h : collector.Gathers filter entries)
    (hclassify : filter.classify added.path = some (name, rank))
    (hseen : collector.seen.lookup name = none) :
    ((collector.remember name ⟨collector.classes.length, rank⟩).append name added.bytes).Gathers
      filter (entries ++ [added]) := by
  have hnew : name ∉ collector.classes.map NamedClass.name := fun hmem =>
    h.unseen name hseen ((h.mem_names_iff name).1 hmem)
  have hnone : NamedClass.find? name collector.classes = none := by
    rw [← Option.not_isSome_iff_eq_none, NamedClass.isSome_find?_iff]
    exact hnew
  refine ⟨h.names_append hclassify added.bytes, fun other hother => ?_, fun other place hother => ?_,
    fun other place hother => ?_⟩
  · obtain ⟨hne, hother⟩ := lookup_remember_eq_none hother
    exact h.unseen_append hclassify hne hother
  · show place.position =
      ((collector.classes ++ [NamedClass.mk name added.bytes]).map NamedClass.name).idxOf other
    rw [List.map_append]
    obtain ⟨rfl, rfl⟩ | ⟨-, hother⟩ := lookup_remember_eq_some hother
    · rw [List.idxOf_append_of_notMem hnew]
      simp
    · rw [List.idxOf_append_of_mem (h.mem_of_seen hother)]
      exact h.position other place hother
  · simp only [append, remember, NamedClass.find?_append]
    obtain ⟨rfl, rfl⟩ | ⟨hne, hother⟩ := lookup_remember_eq_some hother
    · refine ⟨added.bytes, by rw [hnone, if_pos rfl, Option.none_or], ?_⟩
      refine EntryFilter.keeps_last hclassify fun earlier hmem other' hearlier => ?_
      exact absurd (EntryFilter.mem_classNames hmem hearlier) (h.unseen _ hseen)
    · obtain ⟨bytes, hfind, hkeeps⟩ := h.kept_append hclassify hne hother
      exact ⟨bytes, by rw [hfind, Option.some_or], hkeeps⟩

/-- A further entry of the same rank is put behind the classes, too. -/
theorem Gathers.append_same (h : collector.Gathers filter entries)
    (hclassify : filter.classify added.path = some (name, rank))
    (hseen : collector.seen.lookup name = some place) (hrank : place.rank = rank) :
    (collector.append name added.bytes).Gathers filter (entries ++ [added]) := by
  refine ⟨h.names_append hclassify added.bytes, fun other hother => ?_, fun other place' hother => ?_,
    fun other place' hother => ?_⟩
  · have hne : other ≠ name := by
      rintro rfl
      rw [append, hseen] at hother
      cases hother
    exact h.unseen_append hclassify hne hother
  · show place'.position =
      ((collector.classes ++ [NamedClass.mk name added.bytes]).map NamedClass.name).idxOf other
    rw [List.map_append, List.idxOf_append_of_mem (h.mem_of_seen hother)]
    exact h.position other place' hother
  · obtain ⟨bytes, hfind, hkeeps⟩ := h.kept other place' hother
    refine ⟨bytes, ?_, hkeeps.append fun other' hadded => ?_⟩
    · rw [append, NamedClass.find?_append, hfind, Option.some_or]
    · rw [hclassify] at hadded
      cases hadded
      rw [append, hseen] at hother
      cases hother
      exact Nat.le_of_eq hrank

/-- An entry of a lower rank takes the place of the one that counted before. -/
theorem Gathers.replace (h : collector.Gathers filter entries)
    (hclassify : filter.classify added.path = some (name, rank))
    (hseen : collector.seen.lookup name = some place) (hrank : rank < place.rank) :
    ((collector.replace place.position added.bytes).remember name
      ⟨place.position, rank⟩).Gathers filter (entries ++ [added]) := by
  have hnames : (collector.replace place.position added.bytes).classes.map NamedClass.name =
      collector.classes.map NamedClass.name :=
    NamedClass.map_name_modify _ _ _
  have hfind (other : String) := NamedClass.find?_modify name other added.bytes collector.classes
  rw [← h.position name place hseen] at hfind
  refine ⟨?_, fun other hother => ?_, fun other place' hother => ?_, fun other place' hother => ?_⟩
  · have hmem := (h.mem_names_iff name).1 (h.mem_of_seen hseen)
    rw [EntryFilter.classNames_append, EntryFilter.classNames_of_some hclassify,
      eraseDups_append_of_mem hmem, ← h.names, ← hnames]
    rfl
  · obtain ⟨hne, hother⟩ := lookup_remember_eq_none hother
    exact h.unseen_append hclassify hne hother
  · show place'.position =
      ((collector.replace place.position added.bytes).classes.map NamedClass.name).idxOf other
    rw [hnames]
    obtain ⟨rfl, rfl⟩ | ⟨-, hother⟩ := lookup_remember_eq_some hother
    · exact h.position _ place hseen
    · exact h.position other place' hother
  · simp only [Collector.replace, remember, hfind]
    obtain ⟨rfl, rfl⟩ | ⟨hne, hother⟩ := lookup_remember_eq_some hother
    · obtain ⟨bytes, hbefore, hkeeps⟩ := h.kept _ place hseen
      refine ⟨added.bytes, by rw [if_pos rfl, hbefore, Option.map_some], ?_⟩
      refine EntryFilter.keeps_last hclassify fun earlier hmem other' hearlier => ?_
      exact Nat.lt_of_lt_of_le hrank (hkeeps.rank_le hmem hearlier)
    · obtain ⟨bytes, hbefore, hkeeps⟩ := h.kept_append hclassify hne hother
      exact ⟨bytes, by rw [if_neg hne, hbefore], hkeeps⟩

variable {ε : Type}

/-- Adding an entry that can be read comes to an end. -/
theorem add_gathers (h : collector.Gathers filter entries) (added : FoundEntry) :
    ∃ later : Collector,
      (add filter added.path fun _ => (.ok added.bytes : Except ε Bytes)) collector =
          .ok () later ∧
        later.Gathers filter (entries ++ [added]) := by
  cases (Attempt.mk added.path (.ok added.bytes) : Attempt ε).goes filter collector with
  | skipped message hstep hshadowed => exact ⟨_, hstep, (h.note message).skip hshadowed⟩
  | failed _ _ _ _ _ _ _ hread _ _ _ => cases hread
  | failedFirst _ _ _ _ _ hread _ => cases hread
  | first name rank bytes hstep hclassify hread hnew =>
    cases hread
    exact ⟨_, hstep, h.append_new hclassify hnew⟩
  | better name rank bytes place message hstep hclassify hread hseen hrank =>
    cases hread
    exact ⟨_, hstep, (h.note message).replace hclassify hseen hrank⟩
  | further name rank bytes place hstep hclassify hread hseen hrank =>
    cases hread
    exact ⟨_, hstep, h.append_same hclassify hseen hrank⟩

end Steps

/-! ## All entries -/

variable {ε : Type} {filter : EntryFilter π}

/-- Add entries that can be read, in their order. -/
def addAll (filter : EntryFilter π) (entries : List FoundEntry) : EStateM ε Collector Unit :=
  entries.forM fun entry => add filter entry.path fun _ => .ok entry.bytes

theorem addAll_gathers {done : List FoundEntry} {collector : Collector}
    (h : collector.Gathers filter done) (entries : List FoundEntry) :
    ∃ later : Collector, (addAll filter entries : EStateM ε Collector Unit) collector =
        .ok () later ∧ later.Gathers filter (done ++ entries) := by
  induction entries generalizing done collector with
  | nil => exact ⟨collector, rfl, by rwa [List.append_nil]⟩
  | cons entry entries ih =>
    obtain ⟨between, hadd, hbetween⟩ := add_gathers (ε := ε) h entry
    obtain ⟨later, hlater, hgathers⟩ := ih hbetween
    refine ⟨later, ?_, by rwa [List.append_assoc] at hgathers⟩
    rw [addAll, List.forM_eq_forM, List.forM_cons, Stateful.bind_of_ok hadd]
    exact hlater

/-- The first classes of all names have the bytes that count. -/
theorem Gathers.keeps {entries : List FoundEntry} {collector : Collector}
    (h : collector.Gathers filter entries) {found : NamedClass}
    (hfound : found ∈ NamedClass.firsts collector.classes) :
    ∃ rank, filter.Keeps entries found.name rank found.bytes := by
  have hnames := NamedClass.map_name_firsts collector.classes
  have hmem : found.name ∈ filter.classNames entries := by
    rw [← List.mem_eraseDups, ← h.names, ← hnames]
    exact List.mem_map_of_mem hfound
  cases hseen : collector.seen.lookup found.name with
  | none => exact absurd hmem (h.unseen _ hseen)
  | some place =>
    obtain ⟨bytes, hfind, hkeeps⟩ := h.kept _ place hseen
    have hdistinct : ((NamedClass.firsts collector.classes).map NamedClass.name).Nodup := by
      rw [hnames]
      exact nodup_eraseDups _
    rw [← NamedClass.find?_firsts, NamedClass.find?_of_mem hdistinct hfound] at hfind
    cases hfind
    exact ⟨place.rank, hkeeps⟩

/-- Collect the classes of some entries, and take the first class of every name.
Each class name that an entry has comes out once, in the order of the entries,
with the bytes of the earliest entry of the lowest rank; that is the earliest
`.class` entry if there is one.  No position that is remembered on the way lies
outside of the list of classes. -/
theorem firsts_addAll (hbuilt : filter.IsBuilt) (entries : List FoundEntry) :
    ∃ collector : Collector,
      (addAll filter entries : EStateM ε Collector Unit) fresh = .ok () collector ∧
      (NamedClass.firsts collector.classes).map NamedClass.name =
        (filter.classNames entries).eraseDups ∧
      (∀ found ∈ NamedClass.firsts collector.classes,
        (∃ rank, filter.Keeps entries found.name rank found.bytes) ∧
        ∀ entry, entries.find? (fun entry => entry.path = found.name ++ ".class") = some entry →
          filter.isExcluded entry.path = false → entry.bytes = found.bytes) ∧
      ∀ before after : List FoundEntry, entries = before ++ after →
        ∃ reached : Collector,
          (addAll filter before : EStateM ε Collector Unit) fresh = .ok () reached ∧
          ∀ (name : String) (place : SeenClass), reached.seen.lookup name = some place →
            place.position < reached.classes.length := by
  obtain ⟨collector, hrun, hgathers⟩ := addAll_gathers (ε := ε) (gathers_fresh filter) entries
  rw [List.nil_append] at hgathers
  refine ⟨collector, hrun, ?_, fun found hfound => ?_, fun before _ _ => ?_⟩
  · rw [NamedClass.map_name_firsts, hgathers.names]
  · obtain ⟨rank, hkeeps⟩ := hgathers.keeps hfound
    refine ⟨⟨rank, hkeeps⟩, fun entry hfind hincluded => ?_⟩
    exact hkeeps.bytes_eq hbuilt hfind hincluded
  · obtain ⟨reached, hreached, hknown⟩ := addAll_gathers (ε := ε) (gathers_fresh filter) before
    exact ⟨reached, hreached, fun name place hseen => hknown.position_lt hseen⟩

/-- Two classes under two extensions, one of them four times, and another file. -/
def sampleEntries : List FoundEntry :=
  [⟨"a/B.clazz", [1]⟩, ⟨"a/B.clazz", [2]⟩, ⟨"a/C.class", [3]⟩, ⟨"README", [4]⟩,
    ⟨"a/B.class", [5]⟩, ⟨"a/B.class", [6]⟩, ⟨"a/C.clazz", [7]⟩]

theorem firsts_addAll_sampleEntries :
    let filter : EntryFilter := EntryFilter.classFiles.withExtension ".clazz"
    filter.IsBuilt ∧ ∃ collector : Collector,
      (addAll filter sampleEntries : EStateM Empty Collector Unit) fresh = .ok () collector ∧
      (NamedClass.firsts collector.classes).map NamedClass.name = ["a/B", "a/C"] ∧
      ∀ found ∈ NamedClass.firsts collector.classes, found.name = "a/B" → found.bytes = [5] := by
  intro filter
  have hbuilt : filter.IsBuilt := .withExtension .classFiles ".clazz"
  obtain ⟨collector, hrun, hnames, hkept, -⟩ := firsts_addAll (ε := Empty) hbuilt sampleEntries
  refine ⟨hbuilt, collector, hrun, hnames.trans (by decide), fun found hfound hname => ?_⟩
  refine ((hkept found hfound).2 ⟨"a/B.class", [5]⟩ ?_ (by decide)).symm
  rw [hname]
  decide

end Collector

end ClassDelta
