import ClassDelta.Archive.Source
import ClassDelta.Proofs.Archive.Collector
import ClassDelta.Proofs.Text.Utf8Order
import Mathlib.Data.List.Sort
import Mathlib.Data.String.Basic

/-!
# The order of files in a directory

The files below a directory are visited in the order of their paths, which are
compared component by component: `a/Z.class` comes in front of `a-b/Y.class`,
although a slash is larger than a hyphen, and `a.class` comes behind both.
`FoundFile.Precedes` is this order on the bytes of the names, which is the one of
their characters.

A directory is gone through child by child (`FileTree.files_directory`), and what is
neither a file nor a directory is passed over (`FileTree.files_special`).  If
siblings have different names, this gives a strictly ascending list
(`FileTree.pairwise_files`) of all files that are there (`FileTree.mem_files_iff`).
Such a list is known by its members, so it is the same for every order of siblings
(`FileTree.Rearranged.files_eq`).

The main statement is `ClassSource.files_and_read_directory`.
-/

namespace ClassDelta

/-! ## Paths -/

namespace FoundFile

/-- The file comes first: in the first component in which their paths differ its
bytes are smaller, or its path is the beginning of the other one. -/
def Precedes (first later : FoundFile) : Prop :=
  first.path.map utf8Bytes < later.path.map utf8Bytes

theorem precedes_of_path_lt {first later : FoundFile} (h : first.path < later.path) :
    first.Precedes later :=
  List.map_lt (fun _ _ => utf8Bytes_lt) h

/-- The file as an entry, with a path as archives have them. -/
def entry (found : FoundFile) : FoundEntry := ⟨"/".intercalate found.path, found.contents⟩

end FoundFile

/-! ## Trees -/

namespace FileTree

/-- There is a file with these contents at the path.  What can be read from
something else does not count. -/
inductive Holds : FileTree → List String → Bytes → Prop
  | file (contents : Bytes) : Holds (file contents) [] contents
  | child {children : List (String × FileTree)} {child : String × FileTree}
    {path : List String} {contents : Bytes} (hmem : child ∈ children)
    (h : Holds child.2 path contents) : Holds (directory children) (child.1 :: path) contents

/-- In every directory of the tree, siblings have different names. -/
inductive HasDistinctNames : FileTree → Prop
  | file (contents : Bytes) : HasDistinctNames (file contents)
  | directory {children : List (String × FileTree)} (hnames : (children.map Prod.fst).Nodup)
    (h : ∀ entry ∈ children, HasDistinctNames entry.2) : HasDistinctNames (directory children)
  | special (contents : Bytes) : HasDistinctNames (special contents)

/-- The same tree, but for the order of siblings in any of its directories. -/
inductive Rearranged : FileTree → FileTree → Prop
  | refl (tree : FileTree) : Rearranged tree tree
  | siblings {children later : List (String × FileTree)} (h : children.Perm later) :
    Rearranged (directory children) (directory later)
  | child {before after : List (String × FileTree)} {name : String} {tree later : FileTree}
    (h : Rearranged tree later) : Rearranged (directory (before ++ (name, tree) :: after))
      (directory (before ++ (name, later) :: after))
  | trans {tree between later : FileTree} (h : Rearranged tree between)
    (h' : Rearranged between later) : Rearranged tree later

variable {tree later : FileTree} {children : List (String × FileTree)}

/-! ## The walk -/

/-- The children of a directory in the order of their names. -/
def sortedChildren (children : List (String × FileTree)) : List (String × FileTree) :=
  children.mergeSort fun left right => decide (left.1 ≤ right.1)

theorem filesOfChildren_eq_map (children : List (String × FileTree)) :
    filesOfChildren children = children.map fun child => (child.1, child.2.files) := by
  induction children with
  | nil => rw [filesOfChildren, List.map_nil]
  | cons child later ih => rw [filesOfChildren, List.map_cons, ih]

theorem files_file (contents : Bytes) : files (file contents) = [⟨[], contents⟩] := by
  rw [files]

theorem files_special (contents : Bytes) : files (special contents) = [] := by
  rw [files]

/-- A directory is gone through child by child, in the order of their names. -/
theorem files_directory (children : List (String × FileTree)) :
    files (directory children) = (sortedChildren children).flatMap fun child =>
      child.2.files.map (FoundFile.below child.1) := by
  rw [files, filesOfChildren_eq_map, inNameOrder, sortedChildren, ← List.map_mergeSort,
    List.flatMap_map]
  intro left _ right _
  rfl

/-- Children that are in order stay there. -/
theorem files_directory_of_pairwise
    (h : children.Pairwise fun left right => decide (left.1 ≤ right.1) = true) :
    files (directory children) = children.flatMap fun child =>
      child.2.files.map (FoundFile.below child.1) := by
  rw [files_directory, sortedChildren, List.mergeSort_of_pairwise h]

theorem mem_sortedChildren {child : String × FileTree} :
    child ∈ sortedChildren children ↔ child ∈ children :=
  (List.mergeSort_perm children _).mem_iff

/-- Distinct names are in strictly ascending order. -/
theorem pairwise_sortedChildren (hnames : (children.map Prod.fst).Nodup) :
    (sortedChildren children).Pairwise fun first later => first.1 < later.1 := by
  have hsorted : (sortedChildren children).Pairwise fun first later => first.1 ≤ later.1 := by
    refine (List.pairwise_mergeSort ?_ ?_ children).imp ?_
    · intro first second third hfirst hsecond
      rw [decide_eq_true_eq] at hfirst hsecond ⊢
      exact String.le_trans hfirst hsecond
    · intro first second
      rw [Bool.or_eq_true, decide_eq_true_eq, decide_eq_true_eq]
      exact String.le_total first.1 second.1
    · intro first second hle
      rwa [decide_eq_true_eq] at hle
  have hdistinct : (sortedChildren children).Pairwise fun first later => first.1 ≠ later.1 := by
    rw [← List.pairwise_map (f := Prod.fst) (R := (· ≠ ·))]
    exact ((List.mergeSort_perm children _).map Prod.fst).nodup_iff.2 hnames
  refine (hsorted.and hdistinct).imp fun h => ?_
  exact String.not_le.1 fun hle => h.2 (String.le_antisymm h.1 hle)

/-- The files below a tree with distinct names are found in strictly ascending
order. -/
theorem pairwise_files (h : tree.HasDistinctNames) :
    tree.files.Pairwise fun first later => first.path < later.path := by
  induction h with
  | file contents =>
    rw [files_file]
    exact List.pairwise_singleton _ _
  | @directory children hnames _ ih =>
    rw [files_directory, List.pairwise_flatMap]
    -- Two files of one child differ behind its name, two of different children in the names.
    refine ⟨fun child hmem => ?_, (pairwise_sortedChildren hnames).imp ?_⟩
    · rw [List.pairwise_map]
      refine (ih child (mem_sortedChildren.1 hmem)).imp fun hlt => ?_
      exact List.cons_lt_cons_iff.2 (.inr ⟨rfl, hlt⟩)
    · intro child child' hlt found hfound found' hfound'
      obtain ⟨below, -, rfl⟩ := List.mem_map.1 hfound
      obtain ⟨below', -, rfl⟩ := List.mem_map.1 hfound'
      exact List.cons_lt_cons_iff.2 (.inl hlt)
  | special contents =>
    rw [files_special]
    exact List.Pairwise.nil

theorem nodup_files (h : tree.HasDistinctNames) : tree.files.Nodup := by
  refine (pairwise_files h).imp ?_
  rintro found _ hlt rfl
  exact List.lt_irrefl found.path hlt

/-- The files that are found are those below the tree. -/
theorem mem_files_iff (h : tree.HasDistinctNames) {found : FoundFile} :
    found ∈ tree.files ↔ tree.Holds found.path found.contents := by
  induction h generalizing found with
  | file contents =>
    rw [files_file, List.mem_singleton]
    constructor
    · rintro rfl
      exact .file contents
    · intro hholds
      obtain ⟨path, found⟩ := found
      cases hholds
      rfl
  | @directory children _ _ ih =>
    rw [files_directory, List.mem_flatMap]
    constructor
    · rintro ⟨child, hchild, hfound⟩
      obtain ⟨below, hbelow, rfl⟩ := List.mem_map.1 hfound
      have hchild := mem_sortedChildren.1 hchild
      exact .child hchild ((ih child hchild).1 hbelow)
    · intro hholds
      obtain ⟨path, contents⟩ := found
      cases hholds with
      | @child _ child path _ hchild hholds =>
        refine ⟨child, mem_sortedChildren.2 hchild, List.mem_map.2 ⟨⟨path, contents⟩, ?_, rfl⟩⟩
        exact (ih child hchild).2 hholds
  | special contents =>
    rw [files_special]
    exact ⟨fun hmem => absurd hmem List.not_mem_nil, fun hholds => nomatch hholds⟩

/-! ## Other orders of siblings -/

/-- What is below a child that is replaced is below the new child. -/
theorem Holds.replace {before after : List (String × FileTree)} {name : String}
    (h : ∀ path contents, tree.Holds path contents → later.Holds path contents)
    {path : List String} {contents : Bytes}
    (hholds : (directory (before ++ (name, tree) :: after)).Holds path contents) :
    (directory (before ++ (name, later) :: after)).Holds path contents := by
  cases hholds with
  | @child _ child path _ hmem hchild =>
    rcases List.mem_append.1 hmem with hbefore | hmem
    · exact .child (List.mem_append_left _ hbefore) hchild
    · rcases List.mem_cons.1 hmem with rfl | hafter
      · exact @Holds.child _ (name, later) path contents
          (List.mem_append_right _ List.mem_cons_self) (h path contents hchild)
      · exact .child (List.mem_append_right _ (List.mem_cons_of_mem _ hafter)) hchild

theorem Holds.reorder {later : List (String × FileTree)} (h : children ⊆ later)
    {path : List String} {contents : Bytes} (hholds : (directory children).Holds path contents) :
    (directory later).Holds path contents := by
  cases hholds with
  | child hmem hchild => exact .child (h hmem) hchild

/-- The same files are there. -/
theorem Rearranged.holds_iff (h : tree.Rearranged later) (path : List String) (contents : Bytes) :
    tree.Holds path contents ↔ later.Holds path contents := by
  induction h generalizing path contents with
  | refl tree => exact Iff.rfl
  | siblings hperm => exact ⟨.reorder hperm.subset, .reorder hperm.symm.subset⟩
  | child _ ih =>
    exact ⟨.replace fun path contents => (ih path contents).1,
      .replace fun path contents => (ih path contents).2⟩
  | trans _ _ ih ih' => exact (ih path contents).trans (ih' path contents)

theorem Rearranged.hasDistinctNames (h : tree.Rearranged later) (hnames : tree.HasDistinctNames) :
    later.HasDistinctNames := by
  induction h with
  | refl tree => exact hnames
  | siblings hperm =>
    cases hnames with
    | directory hnames hchildren =>
      refine .directory ((hperm.map Prod.fst).nodup_iff.1 hnames) fun child hmem => ?_
      exact hchildren child (hperm.mem_iff.2 hmem)
  | @child before after name tree later _ ih =>
    cases hnames with
    | directory hnames hchildren =>
      have hsame : (before ++ (name, tree) :: after).map Prod.fst =
          (before ++ (name, later) :: after).map Prod.fst := by
        rw [List.map_append, List.map_append, List.map_cons, List.map_cons]
      rw [hsame] at hnames
      rw [List.forall_mem_append, List.forall_mem_cons] at hchildren
      obtain ⟨hbefore, htree, hafter⟩ := hchildren
      refine .directory hnames ?_
      rw [List.forall_mem_append, List.forall_mem_cons]
      exact ⟨hbefore, ih htree, hafter⟩
  | trans _ _ ih ih' => exact ih' (ih hnames)

/-- Files that are in ascending order are known by which they are, so the order in
which siblings are given does not matter. -/
theorem Rearranged.files_eq (h : tree.Rearranged later) (hnames : tree.HasDistinctNames) :
    later.files = tree.files := by
  have hlater := h.hasDistinctNames hnames
  have hperm : later.files.Perm tree.files := by
    rw [List.perm_ext_iff_of_nodup (nodup_files hlater) (nodup_files hnames)]
    intro found
    rw [mem_files_iff hlater, mem_files_iff hnames, h.holds_iff]
  refine hperm.eq_of_pairwise ?_ (pairwise_files hlater) (pairwise_files hnames)
  intro found found' _ _ hlt hlt'
  exact absurd hlt' (List.lt_asymm hlt)

end FileTree

/-! ## Directories as sources -/

namespace ClassSource

variable {π : Type} [PathPattern π]

/-- The files of a directory are added like the entries of an archive. -/
theorem addFiles_eq_addAll (filter : EntryFilter π) (files : List FoundFile) :
    addFiles filter files = Collector.addAll filter (files.map FoundFile.entry) := by
  rw [addFiles, Collector.addAll, List.forM_eq_forM, List.forM_eq_forM, List.forM_map]
  rfl

/-- A collection that comes to an end leaves the classes that were found. -/
theorem outcome_collect {path : String} {collecting : Collecting Unit} {collector : Collector}
    (h : collecting Collector.fresh = .ok () collector) :
    (collect path collecting).outcome.1 = .ok collector.classes := by
  unfold collect
  rw [h]
  rfl

/-- The files of a directory are visited in the strictly ascending order of their
paths, and each of them is.  The classes of the directory are those that a
collector finds in them in this order, whatever the order of siblings is. -/
theorem files_and_read_directory (filter : EntryFilter π) (path : String) {tree : FileTree}
    (hnames : tree.HasDistinctNames) :
    tree.files.Pairwise FoundFile.Precedes ∧
    (∀ found : FoundFile, found ∈ tree.files ↔ tree.Holds found.path found.contents) ∧
    ∃ collector : Collector,
      (Collector.addAll filter (tree.files.map FoundFile.entry) : Collecting Unit)
        Collector.fresh = .ok () collector ∧
      ∀ rearranged : FileTree, tree.Rearranged rearranged →
        rearranged.files = tree.files ∧
        (read filter (.directory path rearranged)).outcome.1 = .ok collector.classes := by
  obtain ⟨collector, hcollect, -⟩ := Collector.addAll_gathers (Collector.gathers_fresh filter)
    (tree.files.map FoundFile.entry)
  refine ⟨(FileTree.pairwise_files hnames).imp FoundFile.precedes_of_path_lt,
    fun found => FileTree.mem_files_iff hnames, collector, hcollect, fun rearranged h => ?_⟩
  have hfiles := h.files_eq hnames
  refine ⟨hfiles, outcome_collect ?_⟩
  rw [hfiles, addFiles_eq_addAll]
  exact hcollect

/-- A directory with names that begin alike, one class under two extensions, and
something with the name of a class file that is no file. -/
def siblingsSample : FileTree :=
  .directory [("a", .directory [("Z.class", .file [3]), ("Z.clazz", .file [2])]),
    ("a-b", .directory [("Y.class", .file [4])]), ("a.class", .file [1]),
    ("b.class", .special [5])]

/-- The same directory with its siblings in another order. -/
def siblingsSampleRearranged : FileTree :=
  .directory [("a.class", .file [1]), ("b.class", .special [5]),
    ("a", .directory [("Z.clazz", .file [2]), ("Z.class", .file [3])]),
    ("a-b", .directory [("Y.class", .file [4])])]

theorem files_and_read_directory_siblings :
    let filter : EntryFilter := EntryFilter.classFiles.withExtension ".clazz"
    siblingsSample.HasDistinctNames ∧ siblingsSample.Rearranged siblingsSampleRearranged ∧
    siblingsSampleRearranged.files = [⟨["a", "Z.class"], [3]⟩, ⟨["a", "Z.clazz"], [2]⟩,
      ⟨["a-b", "Y.class"], [4]⟩, ⟨["a.class"], [1]⟩] ∧
    (read filter (.directory "classes" siblingsSampleRearranged)).outcome.1 =
      .ok [⟨"a/Z", [3]⟩, ⟨"a-b/Y", [4]⟩, ⟨"a", [1]⟩] := by
  intro filter
  have hnames : siblingsSample.HasDistinctNames := by
    refine .directory (by decide) ?_
    simp only [List.forall_mem_cons]
    refine ⟨.directory (by decide) ?_, .directory (by decide) ?_, .file _, .special _,
      fun _ h => nomatch h⟩
    · simp only [List.forall_mem_cons]
      exact ⟨.file _, .file _, fun _ h => nomatch h⟩
    · simp only [List.forall_mem_cons]
      exact ⟨.file _, fun _ h => nomatch h⟩
  have hrearranged : siblingsSample.Rearranged siblingsSampleRearranged := by
    refine .trans (@FileTree.Rearranged.child [] _ _ _ _ (.siblings (.swap _ _ _))) (.siblings ?_)
    exact @List.perm_append_comm _ [_, _] [_, _]
  have hfiles : siblingsSample.files = [⟨["a", "Z.class"], [3]⟩, ⟨["a", "Z.clazz"], [2]⟩,
      ⟨["a-b", "Y.class"], [4]⟩, ⟨["a.class"], [1]⟩] := by
    simp (disch := decide) only [siblingsSample, FileTree.files_directory_of_pairwise,
      FileTree.files_file, FileTree.files_special, List.flatMap_cons, List.flatMap_nil]
    rfl
  obtain ⟨-, -, collector, hcollect, hread⟩ :=
    files_and_read_directory filter "classes" hnames
  obtain ⟨hsame, hclasses⟩ := hread siblingsSampleRearranged hrearranged
  refine ⟨hnames, hrearranged, hsame.trans hfiles, ?_⟩
  rw [hclasses, ← Stateful.endState_of_ok hcollect, hfiles]
  decide

end ClassSource

end ClassDelta
