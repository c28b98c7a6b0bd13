import ClassDelta.Proofs.Archive.EntryFilter
import Mathlib.Data.List.Infix
import Mathlib.Data.List.Nodup

/-!
# Ranks of extensions

Several extensions of a filter can fit one path, as extensions may have dots and
slashes in them and one may end in another.  The first extension that leaves
something in front of it that can be a class name decides
(`EntryFilter.classify_eq_some_iff`).

* `IsFirstStem` is this rule, without regard to how it is carried out.  It goes
  through a list of extensions one by one (`isFirstStem_cons_zero`,
  `isFirstStem_cons_succ`), and more extensions behind the others change nothing
  about it (`IsFirstStem.mono`).
* `HasOrder` says what the extensions of a filter are like, and
  `EntryFilter.IsBuilt.hasOrder` that they are, however it was put together.

`EntryFilter.IsBuilt.extensions_and_classify` has the two together with what
follows from them.
-/

namespace ClassDelta.EntryFilter

variable {π : Type} {extension path name : String} {later extensions : List String}
  {rank first : Nat}

/-! ## The first stem -/

/-- The path is the name, a dot and the extension of this rank, and no extension
of a lower rank leaves a stem of the path. -/
structure IsFirstStem (extensions : List String) (path name : String) (rank : Nat) : Prop where
  spelled : ∃ extension, extensions[rank]? = some extension ∧ path = name ++ "." ++ extension
  isStem : IsStem name
  least : ∀ lower < rank, ∀ extension, extensions[lower]? = some extension →
    ∀ stem, path = stem ++ "." ++ extension → ¬ IsStem stem

theorem stem?_eq_none_iff :
    stem? path extension = none ↔ ∀ stem, path = stem ++ "." ++ extension → ¬ IsStem stem := by
  rw [Option.eq_none_iff_forall_ne_some]
  refine forall_congr' fun stem => ?_
  rw [Ne, stem?_eq_some_iff, not_and]

theorem isFirstStem_cons_zero :
    IsFirstStem (extension :: later) path name 0 ↔ stem? path extension = some name := by
  rw [stem?_eq_some_iff]
  constructor
  · intro h
    obtain ⟨found, hfound, hpath⟩ := h.spelled
    cases hfound
    exact ⟨hpath, h.isStem⟩
  · intro h
    exact ⟨⟨extension, rfl, h.1⟩, h.2, fun lower hlower => absurd hlower (Nat.not_lt_zero lower)⟩

theorem isFirstStem_cons_succ :
    IsFirstStem (extension :: later) path name (rank + 1) ↔
      stem? path extension = none ∧ IsFirstStem later path name rank := by
  rw [stem?_eq_none_iff]
  constructor
  · intro h
    refine ⟨h.least 0 (Nat.succ_pos rank) extension rfl, h.spelled, h.isStem, ?_⟩
    intro lower hlower
    exact h.least (lower + 1) (Nat.succ_lt_succ hlower)
  · intro h
    obtain ⟨hfirst, hlater⟩ := h
    refine ⟨hlater.spelled, hlater.isStem, ?_⟩
    intro lower hlower found hfound
    cases lower with
    | zero =>
      cases hfound
      exact hfirst
    | succ lower => exact hlater.least lower (Nat.lt_of_succ_lt_succ hlower) found hfound

/-- Looking through extensions finds the first stem, with ranks counted from
wherever they start. -/
theorem classifyFrom_eq_some_iff :
    classifyFrom path first extensions = some (name, rank) ↔
      ∃ place, rank = first + place ∧ IsFirstStem extensions path name place := by
  induction extensions generalizing first with
  | nil =>
    constructor
    · intro h
      cases h
    · intro h
      obtain ⟨place, -, hplace⟩ := h
      obtain ⟨extension, hextension, -⟩ := hplace.spelled
      cases hextension
  | cons extension later ih =>
    -- the rank is the one at hand or one of those that follow
    have hplaces : (∃ place, rank = first + place ∧
          IsFirstStem (extension :: later) path name place) ↔
        rank = first ∧ stem? path extension = some name ∨
          ∃ place, rank = first + 1 + place ∧ stem? path extension = none ∧
            IsFirstStem later path name place := by
      rw [← Nat.or_exists_add_one, isFirstStem_cons_zero, Nat.add_zero]
      refine or_congr Iff.rfl (exists_congr fun place => ?_)
      rw [isFirstStem_cons_succ, Nat.add_right_comm, Nat.add_assoc]
    rw [hplaces, classifyFrom]
    cases hstem : stem? path extension with
    | some stem =>
      simp only [Option.some.injEq, Prod.mk.injEq, reduceCtorEq, false_and, and_false,
        exists_false, or_false]
      exact ⟨fun h => ⟨h.2.symm, h.1⟩, fun h => ⟨h.2, h.1.symm⟩⟩
    | none => simp [ih]

/-- A path that is not left out has the name and the rank of its first stem. -/
theorem classify_eq_some_iff [PathPattern π] (filter : EntryFilter π) :
    filter.classify path = some (name, rank) ↔
      filter.isExcluded path = false ∧ IsFirstStem filter.extensions path name rank := by
  have hfrom : classifyFrom path 0 filter.extensions = some (name, rank) ↔
      IsFirstStem filter.extensions path name rank := by
    rw [classifyFrom_eq_some_iff]
    simp only [Nat.zero_add, exists_eq_left']
  unfold classify
  cases filter.isExcluded path with
  | true => simp
  | false => simp [hfrom]

/-- A name and a rank lead back to the path. -/
theorem IsFirstStem.path_eq {path' : String} (h : IsFirstStem extensions path name rank)
    (h' : IsFirstStem extensions path' name rank) : path = path' := by
  obtain ⟨extension, hextension, hpath⟩ := h.spelled
  obtain ⟨extension', hextension', hpath'⟩ := h'.spelled
  rw [hextension] at hextension'
  cases hextension'
  rw [hpath, hpath']

/-- Extensions that come behind the others do not count for a path that has a
stem already. -/
theorem IsFirstStem.mono {more : List String} (h : IsFirstStem extensions path name rank)
    (hfront : extensions <+: more) : IsFirstStem more path name rank := by
  obtain ⟨extension, hextension, hpath⟩ := h.spelled
  obtain ⟨added, rfl⟩ := hfront
  have hrank : rank < extensions.length := (List.getElem?_eq_some_iff.1 hextension).1
  refine ⟨⟨extension, ?_, hpath⟩, h.isStem, fun lower hlower found hfound => ?_⟩
  · rw [List.getElem?_append_left hrank]
    exact hextension
  · rw [List.getElem?_append_left (Nat.lt_trans hlower hrank)] at hfound
    exact h.least lower hlower found hfound

/-! ## The extensions of a filter -/

/-- Extensions that are all different, the first of which is `class`.  None is
empty or starts with a dot. -/
structure HasOrder (extensions : List String) : Prop where
  head : extensions.head? = some "class"
  nodup : extensions.Nodup
  usable : ∀ extension ∈ extensions, extension ≠ "" ∧ extension.toList.head? ≠ some '.'

/-- What an extension adds is new, and its dots are gone. -/
theorem extensions_withExtension (filter : EntryFilter π) (extension : String) :
    (filter.withExtension extension).extensions = filter.extensions ∨
      ∃ added, (filter.withExtension extension).extensions = filter.extensions ++ [added] ∧
        added ∉ filter.extensions ∧ added ≠ "" ∧ added.toList.head? ≠ some '.' := by
  unfold withExtension
  generalize hadded : String.ofList (extension.toList.dropWhile (· == '.')) = added
  have hdots : added.toList.head? ≠ some '.' := by
    have hhead := List.head?_dropWhile_not (· == '.') extension.toList
    rw [← hadded, String.toList_ofList]
    intro hdot
    rw [hdot] at hhead
    exact absurd hhead (by decide)
  dsimp only
  split
  · exact Or.inl rfl
  · rename_i hnew
    rw [Bool.or_eq_true, not_or, String.isEmpty_iff, List.contains_iff_mem] at hnew
    exact Or.inr ⟨added, rfl, hnew.2, hnew.1, hdots⟩

theorem excludes_withExtension (filter : EntryFilter π) (extension : String) :
    (filter.withExtension extension).excludes = filter.excludes := by
  unfold withExtension
  dsimp only
  split <;> rfl

/-- More extensions leave the old ones where they are and leave out no other
paths. -/
theorem extends_withExtensions (filter : EntryFilter π) (more : List String) :
    filter.extensions <+: (filter.withExtensions more).extensions ∧
      (filter.withExtensions more).excludes = filter.excludes := by
  unfold withExtensions
  induction more generalizing filter with
  | nil => exact ⟨List.prefix_rfl, rfl⟩
  | cons extension more ih =>
    obtain ⟨hfront, hexcludes⟩ := ih (filter.withExtension extension)
    have hone : filter.extensions <+: (filter.withExtension extension).extensions := by
      rcases filter.extensions_withExtension extension with hsame | ⟨added, hadded, -⟩
      · rw [hsame]
      · rw [hadded]
        exact List.prefix_append _ _
    rw [List.foldl_cons]
    exact ⟨hone.trans hfront, hexcludes.trans (filter.excludes_withExtension extension)⟩

theorem HasOrder.append {added : String} (h : HasOrder extensions) (hnew : added ∉ extensions)
    (husable : added ≠ "" ∧ added.toList.head? ≠ some '.') : HasOrder (extensions ++ [added]) where
  head := by rw [List.head?_append, h.head, Option.some_or]
  nodup := by
    rw [List.nodup_append]
    refine ⟨h.nodup, List.nodup_singleton added, fun old hold new hadded => ?_⟩
    rw [List.mem_singleton] at hadded
    subst hadded
    exact ne_of_mem_of_not_mem hold hnew
  usable extension hmem := by
    rcases List.mem_append.1 hmem with hold | hadded
    · exact h.usable extension hold
    · rw [List.mem_singleton] at hadded
      subst hadded
      exact husable

theorem extensions_exclude [PathPattern π] {filter excluding : EntryFilter π} {pattern : String}
    (h : filter.exclude pattern = .ok excluding) : excluding.extensions = filter.extensions := by
  unfold exclude at h
  split at h <;> cases h
  rfl

namespace IsBuilt

variable [PathPattern π] {filter : EntryFilter π}

/-- However a filter was put together, its extensions are in order. -/
theorem hasOrder (h : filter.IsBuilt) : HasOrder filter.extensions := by
  induction h with
  | classFiles =>
    exact ⟨rfl, List.nodup_singleton _, List.forall_mem_singleton.2 ⟨by decide, by decide⟩⟩
  | exclude _ hpattern ih =>
    rw [extensions_exclude hpattern]
    exact ih
  | @withExtension filter _ extension ih =>
    rcases filter.extensions_withExtension extension with hsame | ⟨added, hadded, hnew, husable⟩
    · rw [hsame]
      exact ih
    · rw [hadded]
      exact ih.append hnew husable

/-- The extensions of a filter are in order, and a path has the name and the rank
of its first stem, unless it is left out.  So a name and a rank lead back to the
path, paths that end in `.class` have the rank 0, and further extensions change
nothing for a path that has a name. -/
theorem extensions_and_classify (h : filter.IsBuilt) :
    HasOrder filter.extensions ∧
    (∀ path name rank, filter.classify path = some (name, rank) ↔
      filter.isExcluded path = false ∧ IsFirstStem filter.extensions path name rank) ∧
    (∀ path path' name rank, filter.classify path = some (name, rank) →
      filter.classify path' = some (name, rank) → path = path') ∧
    (∀ name, IsStem name → filter.classify (name ++ ".class") =
      if filter.isExcluded (name ++ ".class") then none else some (name, 0)) ∧
    ∀ path name rank (more : List String), filter.classify path = some (name, rank) →
      (filter.withExtensions more).classify path = some (name, rank) := by
  refine ⟨h.hasOrder, fun path name rank => filter.classify_eq_some_iff, ?_, ?_, ?_⟩
  · intro path path' name rank hpath hpath'
    rw [classify_eq_some_iff] at hpath hpath'
    exact hpath.2.path_eq hpath'.2
  · intro name hname
    split
    · rename_i hexcluded
      unfold classify
      rw [if_pos hexcluded]
    · rename_i hincluded
      rw [Bool.not_eq_true] at hincluded
      exact h.classify_eq_zero_iff.2 ⟨hincluded, rfl, hname⟩
  · intro path name rank more hpath
    obtain ⟨hfront, hexcludes⟩ := filter.extends_withExtensions more
    rw [classify_eq_some_iff] at hpath ⊢
    refine ⟨?_, hpath.2.mono hfront⟩
    rw [isExcluded, hexcludes]
    exact hpath.1

end IsBuilt

/-- A filter that leaves out what is under `gen/` and takes two more extensions,
one of which ends in the other. -/
def overlappingSample : EntryFilter where
  excludes :=
    [⟨[.literal 'g', .literal 'e', .literal 'n', .literal '/', .anySequence]⟩]
  extensions := ["class", "bin", "o.bin"]

theorem extensions_and_classify_overlapping :
    overlappingSample.IsBuilt ∧ HasOrder overlappingSample.extensions ∧
    (overlappingSample.classify "a/B.o.bin" = some ("a/B.o", 1) ∧
      IsFirstStem overlappingSample.extensions "a/B.o.bin" "a/B.o" 1 ∧
      ∀ path, overlappingSample.classify path = some ("a/B.o", 1) → path = "a/B.o.bin") ∧
    (IsStem "gen/B" ∧ overlappingSample.classify ("gen/B" ++ ".class") = none ∧
      IsStem "a/B" ∧ overlappingSample.classify ("a/B" ++ ".class") = some ("a/B", 0)) ∧
    (overlappingSample.withExtensions ["B.o.bin", "..jar"]).classify "a/B.o.bin" =
      some ("a/B.o", 1) := by
  have hexclude : (classFiles : EntryFilter).exclude "gen/*" =
      .ok ⟨overlappingSample.excludes, ["class"]⟩ := by rfl
  have hbuilt : overlappingSample.IsBuilt :=
    .withExtension (.withExtension (.exclude .classFiles hexclude) ".bin") "o.bin"
  obtain ⟨horder, hiff, hpath, hclass, hmore⟩ := hbuilt.extensions_and_classify
  have hranked : overlappingSample.classify "a/B.o.bin" = some ("a/B.o", 1) := by decide
  have hgenerated : IsStem "gen/B" := ⟨by decide, by decide⟩
  have hordinary : IsStem "a/B" := ⟨by decide, by decide⟩
  refine ⟨hbuilt, horder, ⟨hranked, ((hiff _ _ _).1 hranked).2, fun path h => ?_⟩,
    ⟨hgenerated, ?_, hordinary, ?_⟩, hmore _ _ _ _ hranked⟩
  · exact hpath _ _ _ _ h hranked
  · exact (hclass "gen/B" hgenerated).trans (if_pos (by decide))
  · exact (hclass "a/B" hordinary).trans (if_neg (by decide))

end ClassDelta.EntryFilter
