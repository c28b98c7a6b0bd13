import ClassDelta.Archive.EntryFilter

/-!
# Paths and class names

A path is the file of a class if it is the name of the class, a dot and one of
the extensions (`EntryFilter.stem?_eq_some_iff`).  However a filter was put
together, `class` is its first extension (`EntryFilter.IsBuilt.extensions_eq`),
so the rank 0 is for paths that end in `.class` and for nothing else
(`EntryFilter.IsBuilt.classify_eq_zero_iff`).

What a pattern accepts plays no part in this, so the patterns may be of any kind.
-/

namespace ClassDelta.EntryFilter

/-! ## Stems -/

/-- What can stand in front of the dot and the extension. -/
structure IsStem (name : String) : Prop where
  nonempty : name ≠ ""
  noSlash : name.toList.getLast? ≠ some '/'

theorem isStem_iff (name : String) :
    IsStem name ↔ name.toList ≠ [] ∧ name.toList.getLast? ≠ some '/' := by
  have hnonempty : name ≠ "" ↔ name.toList ≠ [] := by rw [Ne, ← String.toList_eq_nil_iff]
  rw [← hnonempty]
  exact ⟨fun h => ⟨h.nonempty, h.noSlash⟩, fun h => ⟨h.1, h.2⟩⟩

theorem eq_append_extension_iff (path stem extension : String) :
    path = stem ++ "." ++ extension ↔ path.toList = stem.toList ++ '.' :: extension.toList := by
  rw [← String.toList_inj, String.toList_append, String.toList_append, List.append_assoc]
  rfl

theorem stem?_eq_some_iff {path extension stem : String} :
    stem? path extension = some stem ↔ path = stem ++ "." ++ extension ∧ IsStem stem := by
  rw [eq_append_extension_iff, isStem_iff]
  unfold stem?
  simp only [Bool.and_eq_true, List.isSuffixOf_iff_suffix, Bool.not_eq_true',
    List.isEmpty_eq_false_iff, bne_iff_ne]
  constructor
  · intro h
    split at h
    · rename_i hends
      cases h
      obtain ⟨⟨hsuffix, hnonempty⟩, hnoSlash⟩ := hends
      rw [List.suffix_iff_eq_append] at hsuffix
      rw [String.toList_ofList]
      exact ⟨hsuffix.symm, hnonempty, hnoSlash⟩
    · cases h
  · rintro ⟨hchars, hnonempty, hnoSlash⟩
    have htake : path.toList.take (path.toList.length - ('.' :: extension.toList).length) =
        stem.toList := by
      rw [hchars, List.length_append, Nat.add_sub_cancel, List.take_left]
    rw [htake, if_pos ⟨⟨⟨stem.toList, hchars.symm⟩, hnonempty⟩, hnoSlash⟩, String.ofList_toList]

/-! ## Ranks -/

variable {π : Type} [PathPattern π] {path name : String} {rank first : Nat}

/-- The name is a stem that one of the extensions gives. -/
theorem isStem_of_classifyFrom {extensions : List String}
    (h : classifyFrom path first extensions = some (name, rank)) : IsStem name ∧ first ≤ rank := by
  induction extensions generalizing first with
  | nil => cases h
  | cons extension later ih =>
    unfold classifyFrom at h
    cases hstem : stem? path extension with
    | some stem =>
      rw [hstem] at h
      cases h
      exact ⟨(stem?_eq_some_iff.1 hstem).2, Nat.le_refl _⟩
    | none =>
      rw [hstem] at h
      obtain ⟨hname, hrank⟩ := ih h
      exact ⟨hname, Nat.le_of_succ_le hrank⟩

theorem isStem_of_classify {filter : EntryFilter π} (h : filter.classify path = some (name, rank)) :
    IsStem name := by
  unfold classify at h
  split at h
  · cases h
  · exact (isStem_of_classifyFrom h).1

/-! ## Filters that were put together -/

/-- Filters that come from the one for class files by leaving out more paths and
by taking more extensions. -/
inductive IsBuilt : EntryFilter π → Prop
  | classFiles : IsBuilt classFiles
  | exclude {filter later : EntryFilter π} {pattern : String} (h : IsBuilt filter)
      (hpattern : filter.exclude pattern = .ok later) : IsBuilt later
  | withExtension {filter : EntryFilter π} (h : IsBuilt filter) (extension : String) :
      IsBuilt (filter.withExtension extension)

namespace IsBuilt

variable {filter : EntryFilter π}

/-- Extensions are added behind `class`. -/
theorem extensions_eq (h : filter.IsBuilt) : ∃ others, filter.extensions = "class" :: others := by
  induction h with
  | classFiles => exact ⟨[], rfl⟩
  | @exclude filter later pattern _ hpattern ih =>
    unfold EntryFilter.exclude at hpattern
    split at hpattern
    · cases hpattern
      exact ih
    · cases hpattern
  | @withExtension filter _ extension ih =>
    obtain ⟨others, hothers⟩ := ih
    unfold EntryFilter.withExtension
    simp only
    split
    · exact ⟨others, hothers⟩
    · exact ⟨others ++ [_], by rw [hothers]; rfl⟩

/-- The rank 0 is the one of `.class` files, which no other extension gives. -/
theorem classify_eq_zero_iff (h : filter.IsBuilt) :
    filter.classify path = some (name, 0) ↔
      filter.isExcluded path = false ∧ path = name ++ ".class" ∧ IsStem name := by
  obtain ⟨others, hothers⟩ := h.extensions_eq
  have hpath : path = name ++ ".class" ↔ path = name ++ "." ++ "class" := by
    rw [String.append_assoc]
    rfl
  rw [classify, hothers, classifyFrom, hpath, ← stem?_eq_some_iff]
  cases filter.isExcluded path with
  | true => simp
  | false =>
    cases hstem : stem? path "class" with
    | some stem => simp
    | none =>
      have hlater : classifyFrom path 1 others ≠ some (name, 0) := by
        intro hrank
        exact absurd (isStem_of_classifyFrom hrank).2 (by decide)
      simp [hlater]

end IsBuilt

end ClassDelta.EntryFilter
