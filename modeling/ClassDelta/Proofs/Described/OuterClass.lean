import ClassDelta.Proofs.Described.FirstAttributes
import ClassDelta.Proofs.Described.Members

/-!
# The class around a class

Two attributes can name the class around a class (`Surroundings`).  The entry that
the class has among its own inner classes comes first, unless it leaves the outer
class blank; then it is the place of a local or anonymous class.  Of the entries
only the first one about the class itself counts (`InnerClass.IsAbout`).

`Surroundings.outerIndex?` selects the index by these rules, and
`resolveOuterClass_eq_selected` says that its class is the result.
-/

namespace ClassDelta

open RawAttribute (HaveNames firstInfo?)

/-! ## What the attributes say -/

/-- The first attribute of the format decodes to the value; without a value, there is
no such attribute. -/
def AttributeFormat.HoldsFirst {α : Type} (format : AttributeFormat α) (pool : Pool)
    (attributes : List RawAttribute) (value : Option α) : Prop :=
  (firstInfo? pool format.name attributes).map format.decode = value.map .ok

instance {α : Type} [DecidableEq α] (format : AttributeFormat α) (pool : Pool)
    (attributes : List RawAttribute) (value : Option α) :
    Decidable (format.HoldsFirst pool attributes value) :=
  inferInstanceAs (Decidable (_ = _))

theorem AttributeFormat.HoldsFirst.find_eq {α : Type} {format : AttributeFormat α} {pool : Pool}
    {attributes : List RawAttribute} {value : Option α} (h : format.HoldsFirst pool attributes value)
    (hnamed : HaveNames pool attributes) : format.find pool attributes = .ok value := by
  rw [format.find_eq_firstInfo? hnamed]
  unfold HoldsFirst at h
  cases hinfo : firstInfo? pool format.name attributes with
  | none =>
    rw [hinfo] at h
    cases value with
    | none => rfl
    | some value => cases h
  | some info =>
    rw [hinfo] at h
    cases value with
    | none => cases h
    | some value =>
      have hdecode : format.decode info = .ok value := Option.some.inj h
      show some <$> format.decode info = _
      rw [hdecode]
      rfl

/-- What the attributes of a class say about the class around it. -/
structure Surroundings where
  innerClasses : Option (List InnerClass)
  enclosingMethod : Option EnclosingMethod

/-- The entry is about the class called `name`, through whichever index. -/
def InnerClass.IsAbout (pool : Pool) (name : String) (entry : InnerClass) : Prop :=
  pool.className entry.inner = .ok name

instance (pool : Pool) (name : String) : DecidablePred (InnerClass.IsAbout pool name) :=
  fun entry => inferInstanceAs (Decidable (pool.className entry.inner = .ok name))

namespace Surroundings

/-- The entries for inner classes, of which there are none without the attribute. -/
def entries (surroundings : Surroundings) : List InnerClass :=
  surroundings.innerClasses.getD []

/-- The attributes say this, and all entries are about some class. -/
structure AreIn (surroundings : Surroundings) (pool : Pool) (attributes : List RawAttribute) :
    Prop where
  named : HaveNames pool attributes
  innerClasses : AttributeFormat.innerClasses.HoldsFirst pool attributes surroundings.innerClasses
  resolved : ∀ entry ∈ surroundings.entries, ∃ name, pool.className entry.inner = .ok name
  enclosingMethod :
    AttributeFormat.enclosingMethod.HoldsFirst pool attributes surroundings.enclosingMethod

/-- The index of the class around the one called `name`: the outer class in its first
entry, if this is not blank, and otherwise the enclosing class. -/
def outerIndex? (surroundings : Surroundings) (pool : Pool) (name : String) : Option PoolIndex :=
  let enclosing := surroundings.enclosingMethod.map EnclosingMethod.className
  match surroundings.entries.find? (InnerClass.IsAbout pool name) with
  | some entry => if entry.outer = 0 then enclosing else some entry.outer
  | none => enclosing

end Surroundings

/-! ## What is found -/

theorem findInnerClass_eq_find? {pool : Pool} {entries : List InnerClass}
    (hresolved : ∀ entry ∈ entries, ∃ name, pool.className entry.inner = .ok name)
    (name : String) :
    findInnerClass pool name entries = .ok (entries.find? (InnerClass.IsAbout pool name)) := by
  induction entries with
  | nil => rfl
  | cons entry later ih =>
    obtain ⟨found, hfound⟩ := hresolved entry List.mem_cons_self
    have hlater := ih fun other hmem => hresolved other (List.mem_cons_of_mem _ hmem)
    rw [findInnerClass, bind_of_eq_ok hfound]
    by_cases hname : found = name
    · have habout : InnerClass.IsAbout pool name entry := by rw [InnerClass.IsAbout, hfound, hname]
      rw [if_pos hname, List.find?_cons_of_pos (by simpa using habout)]
      rfl
    · have hother : ¬ InnerClass.IsAbout pool name entry := by
        rw [InnerClass.IsAbout, hfound]
        intro heq
        exact hname (Except.ok.inj heq)
      rw [if_neg hname, List.find?_cons_of_neg (by simpa using hother)]
      exact hlater

namespace Surroundings

variable {surroundings : Surroundings} {pool : Pool} {attributes : List RawAttribute}

theorem AreIn.resolveDeclaringClass_eq (h : surroundings.AreIn pool attributes) (name : String) :
    resolveDeclaringClass pool name attributes =
      match surroundings.entries.find? (InnerClass.IsAbout pool name) with
      | some entry => pool.className? entry.outer
      | none => .ok none := by
  rw [resolveDeclaringClass, bind_of_eq_ok (h.innerClasses.find_eq h.named)]
  obtain ⟨innerClasses, place⟩ := surroundings
  cases innerClasses with
  | none => rfl
  | some entries =>
    have hown : findInnerClass pool name entries =
        .ok (entries.find? (InnerClass.IsAbout pool name)) := findInnerClass_eq_find? h.resolved name
    show (findInnerClass pool name entries >>= _) = match entries.find? _ with
      | some entry => pool.className? entry.outer
      | none => .ok none
    rw [bind_of_eq_ok hown]
    cases entries.find? (InnerClass.IsAbout pool name) with
    | none => rfl
    | some entry => rfl

theorem AreIn.resolveEnclosingClass_eq (h : surroundings.AreIn pool attributes) :
    resolveEnclosingClass pool attributes =
      match surroundings.enclosingMethod.map EnclosingMethod.className with
      | some index => some <$> pool.className index
      | none => .ok none := by
  rw [resolveEnclosingClass, bind_of_eq_ok (h.enclosingMethod.find_eq h.named)]
  cases surroundings.enclosingMethod with
  | none => rfl
  | some place => rfl

theorem AreIn.resolveOuterClass_eq (h : surroundings.AreIn pool attributes) (name : String) :
    resolveOuterClass pool name attributes =
      match surroundings.outerIndex? pool name with
      | some index => some <$> pool.className index
      | none => .ok none := by
  rw [resolveOuterClass, h.resolveDeclaringClass_eq, outerIndex?]
  cases surroundings.entries.find? (InnerClass.IsAbout pool name) with
  | none => exact h.resolveEnclosingClass_eq
  | some entry =>
    by_cases hblank : entry.outer = 0
    · simp only [hblank, if_true]
      exact h.resolveEnclosingClass_eq
    · simp only [Pool.className?, Pool.optional, hblank, if_false]
      cases pool.className entry.outer with
      | ok outer => rfl
      | error error => rfl

/-- Only the entries about the class itself are looked at, in their order. -/
theorem outerIndex?_congr {other : Surroundings} {name : String}
    (hentries : other.entries.filter (InnerClass.IsAbout pool name) =
      surroundings.entries.filter (InnerClass.IsAbout pool name))
    (hplace : other.enclosingMethod = surroundings.enclosingMethod) :
    other.outerIndex? pool name = surroundings.outerIndex? pool name := by
  rw [outerIndex?, outerIndex?, hplace, ← List.head?_filter, ← List.head?_filter, hentries]

end Surroundings

/-- The result is the class at the index that is selected, or the failure to resolve
this one index, or nothing where none is selected.  Attributes that agree on the
enclosing method and on the entries about the class come to the same result, whatever
entries about other classes either of them has in between and in whichever order. -/
theorem resolveOuterClass_eq_selected {pool : Pool} {attributes : List RawAttribute}
    {surroundings : Surroundings} (h : surroundings.AreIn pool attributes) (name : String) :
    (resolveOuterClass pool name attributes =
      match surroundings.outerIndex? pool name with
      | some index => some <$> pool.className index
      | none => .ok none) ∧
    ∀ (attributes' : List RawAttribute) (surroundings' : Surroundings),
      surroundings'.AreIn pool attributes' →
      surroundings'.enclosingMethod = surroundings.enclosingMethod →
      surroundings'.entries.filter (InnerClass.IsAbout pool name) =
        surroundings.entries.filter (InnerClass.IsAbout pool name) →
      resolveOuterClass pool name attributes' = resolveOuterClass pool name attributes := by
  refine ⟨h.resolveOuterClass_eq name, ?_⟩
  intro attributes' surroundings' h' hplace hentries
  rw [h.resolveOuterClass_eq, h'.resolveOuterClass_eq,
    Surroundings.outerIndex?_congr hentries hplace]

/-- The class `A$B` is known through two indices.  An entry about another class goes
from behind its own entry to the front and names an outer class that does not exist;
the second entry of its own does not count. -/
theorem resolveOuterClass_eq_selected_reordered :
    let pool : Pool := .ofConstants
      [.utf8 "A$B", .named .className 1, .utf8 "A", .named .className 3, .named .className 1,
        .utf8 "InnerClasses"]
    let own : InnerClass := ⟨5, 4, 0, .ofBits 0x0008⟩
    let again : InnerClass := ⟨2, 0, 0, .ofBits 0⟩
    let before : Surroundings := ⟨some [own, ⟨4, 0, 0, .ofBits 0⟩, again], none⟩
    let after : Surroundings := ⟨some [⟨4, 99, 0, .ofBits 0⟩, own, again], none⟩
    let write (entries : List InnerClass) : List RawAttribute :=
      [⟨6, AttributeFormat.innerClasses.codec.write entries⟩]
    before.AreIn pool (write before.entries) ∧ after.AreIn pool (write after.entries) ∧
      resolveOuterClass pool "A$B" (write before.entries) = .ok (some "A") ∧
      resolveOuterClass pool "A$B" (write after.entries) = .ok (some "A") := by
  intro pool own again before after write
  have hresolved {entries : List InnerClass}
      (h : ∀ entry ∈ entries, entry.inner = 2 ∨ entry.inner = 4 ∨ entry.inner = 5) :
      ∀ entry ∈ entries, ∃ name, pool.className entry.inner = .ok name := by
    intro entry hmem
    rcases h entry hmem with hinner | hinner | hinner
    · exact ⟨"A$B", by rw [hinner]; decide⟩
    · exact ⟨"A", by rw [hinner]; decide⟩
    · exact ⟨"A$B", by rw [hinner]; decide⟩
  have hbefore : before.AreIn pool (write before.entries) :=
    ⟨by decide, by decide, hresolved (by decide), by decide⟩
  have hafter : after.AreIn pool (write after.entries) :=
    ⟨by decide, by decide, hresolved (by decide), by decide⟩
  obtain ⟨hselected, hsame⟩ := resolveOuterClass_eq_selected hbefore "A$B"
  have hresult : resolveOuterClass pool "A$B" (write before.entries) = .ok (some "A") :=
    hselected.trans (by decide)
  exact ⟨hbefore, hafter, hresult, (hsame _ after hafter rfl (by decide)).trans hresult⟩

end ClassDelta
