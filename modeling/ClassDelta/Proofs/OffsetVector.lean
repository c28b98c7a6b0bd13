import ClassDelta.OffsetVector
import Mathlib.Algebra.GroupWithZero.Nat

/-!
# Pushing and finding

A vector that was filled by pushing is `OffsetVector.ofList`: its elements lie
one behind the other, which `layout` spells out.  Where every element has a
width, the offsets of a layout ascend strictly.

On ascending offsets the bisection finds exactly what is there.
`splits_bisect` carries the invariant of the search, and `find?_eq_some_iff` is
what the look-ups of a pool use: an offset leads to an element if and only if the
vector lists the element at that offset.
-/

namespace ClassDelta.OffsetVector

variable {α : Type}

/-! ## Where pushed elements lie -/

section Layout

variable [Width α]

/-- The vector that holds the values, the first of them at `offset`. -/
def ofList (offset : Nat) (values : List α) : OffsetVector α :=
  values.foldl push (startingAt offset)

/-- The values, each at the offset behind the one before it. -/
def layout (offset : Nat) : List α → List (Nat × α)
  | [] => []
  | value :: values => (offset, value) :: layout (offset + Width.width value) values

/-- How many offsets the values take up. -/
def totalWidth : List α → Nat
  | [] => 0
  | value :: values => Width.width value + totalWidth values

@[simp] theorem totalWidth_nil : totalWidth ([] : List α) = 0 := rfl

@[simp] theorem totalWidth_cons (value : α) (values : List α) :
    totalWidth (value :: values) = Width.width value + totalWidth values := rfl

theorem totalWidth_eq_sum (values : List α) :
    totalWidth values = (values.map Width.width).sum := by
  induction values with
  | nil => rfl
  | cons value values ih => rw [totalWidth_cons, ih, List.map_cons, List.sum_cons]

theorem totalWidth_replicate (count : Nat) (value : α) :
    totalWidth (List.replicate count value) = count * Width.width value := by
  induction count with
  | zero => simp
  | succ count ih => rw [List.replicate_succ, totalWidth_cons, ih, Nat.succ_mul, Nat.add_comm]

@[simp] theorem toList_push (vector : OffsetVector α) (value : α) :
    (vector.push value).toList = vector.toList ++ [(vector.next, value)] := by
  simp [push, toList]

@[simp] theorem next_push (vector : OffsetVector α) (value : α) :
    (vector.push value).next = vector.next + Width.width value := rfl

theorem toList_foldl_push (vector : OffsetVector α) (values : List α) :
    (values.foldl push vector).toList = vector.toList ++ layout vector.next values := by
  induction values generalizing vector with
  | nil => simp [layout]
  | cons value values ih => simp [ih, layout]

theorem next_foldl_push (vector : OffsetVector α) (values : List α) :
    (values.foldl push vector).next = vector.next + totalWidth values := by
  induction values generalizing vector with
  | nil => simp
  | cons value values ih => simp [ih, Nat.add_assoc]

@[simp] theorem toList_ofList (offset : Nat) (values : List α) :
    (ofList offset values).toList = layout offset values := by
  rw [ofList, toList_foldl_push]
  rfl

@[simp] theorem next_ofList (offset : Nat) (values : List α) :
    (ofList offset values).next = offset + totalWidth values :=
  next_foldl_push (startingAt offset) values

theorem ofList_push (offset : Nat) (values : List α) (value : α) :
    (ofList offset values).push value = ofList offset (values ++ [value]) := by
  simp [ofList]

@[simp] theorem map_snd_layout (offset : Nat) (values : List α) :
    (layout offset values).map Prod.snd = values := by
  induction values generalizing offset with
  | nil => rfl
  | cons value values ih => simp [layout, ih]

@[simp] theorem length_layout (offset : Nat) (values : List α) :
    (layout offset values).length = values.length := by
  rw [← List.length_map Prod.snd, map_snd_layout]

@[simp] theorem size_ofList (offset : Nat) (values : List α) :
    (ofList offset values).size = values.length := by
  show (ofList offset values).toList.length = values.length
  rw [toList_ofList, length_layout]

/-- A value starts behind all values in front of it. -/
theorem getElem?_layout (offset : Nat) (values : List α) (index : Nat) :
    (layout offset values)[index]? =
      values[index]?.map fun value => (offset + totalWidth (values.take index), value) := by
  induction values generalizing offset index with
  | nil => rfl
  | cons value values ih =>
    cases index with
    | zero => simp [layout]
    | succ index =>
      rw [layout, List.getElem?_cons_succ, ih]
      simp [Nat.add_assoc]

/-- An element of a layout lies between its two ends. -/
theorem layout_bounds {offset : Nat} {values : List α} {entry : Nat × α}
    (h : entry ∈ layout offset values) :
    offset ≤ entry.1 ∧ entry.1 + Width.width entry.2 ≤ offset + totalWidth values := by
  induction values generalizing offset with
  | nil => simp [layout] at h
  | cons value values ih =>
    rw [totalWidth_cons]
    rcases List.mem_cons.1 h with rfl | hlater
    · exact ⟨Nat.le_refl _, by rw [← Nat.add_assoc]; exact Nat.le_add_right _ _⟩
    · have hbounds := ih hlater
      omega

/-- Every offset between the two ends of a layout belongs to an element. -/
theorem exists_mem_layout {offset position : Nat} {values : List α} (hlow : offset ≤ position)
    (hhigh : position < offset + totalWidth values) :
    ∃ entry ∈ layout offset values,
      entry.1 ≤ position ∧ position < entry.1 + Width.width entry.2 := by
  induction values generalizing offset with
  | nil =>
    rw [totalWidth_nil] at hhigh
    omega
  | cons value values ih =>
    rw [totalWidth_cons, ← Nat.add_assoc] at hhigh
    by_cases hfirst : position < offset + Width.width value
    · exact ⟨(offset, value), List.mem_cons_self, hlow, hfirst⟩
    · obtain ⟨entry, hmem, hextent⟩ := ih (Nat.le_of_not_lt hfirst) hhigh
      exact ⟨entry, List.mem_cons_of_mem _ hmem, hextent⟩

/-- An offset belongs to one element only. -/
theorem eq_of_mem_layout {offset position : Nat} {values : List α} {entry other : Nat × α}
    (hentry : entry ∈ layout offset values) (hother : other ∈ layout offset values)
    (hextent : entry.1 ≤ position ∧ position < entry.1 + Width.width entry.2)
    (hextent' : other.1 ≤ position ∧ position < other.1 + Width.width other.2) :
    entry = other := by
  induction values generalizing offset with
  | nil => cases hentry
  | cons value values ih =>
    rcases List.mem_cons.1 hentry with rfl | hlater
    · rcases List.mem_cons.1 hother with rfl | hlater'
      · rfl
      · have hbehind := (layout_bounds hlater').1
        have hfront : position < offset + Width.width value := hextent.2
        omega
    · rcases List.mem_cons.1 hother with rfl | hlater'
      · have hbehind := (layout_bounds hlater).1
        have hfront : position < offset + Width.width value := hextent'.2
        omega
      · exact ih hlater hlater'

end Layout

/-! ## The search -/

theorem getElem?_toList (vector : OffsetVector α) (position : Nat) :
    vector.toList[position]? = vector.entries[position]? :=
  Array.getElem?_toList

/-- Every element starts behind the ones in front of it. -/
def Ascending (vector : OffsetVector α) : Prop :=
  vector.toList.Pairwise fun first later => first.1 < later.1

/-- Elements with a width push each other apart. -/
theorem ascending_ofList [Width α] (offset : Nat) {values : List α}
    (hwidth : ∀ value ∈ values, 0 < Width.width value) : (ofList offset values).Ascending := by
  rw [Ascending, toList_ofList]
  induction values generalizing offset with
  | nil => exact List.Pairwise.nil
  | cons value values ih =>
    refine List.Pairwise.cons ?_ (ih _ fun later hmem => hwidth later (by simp [hmem]))
    intro entry hentry
    have hstart := (layout_bounds hentry).1
    have hpositive := hwidth value (by simp)
    show offset < entry.1
    omega

theorem Ascending.lt {vector : OffsetVector α} (h : vector.Ascending) {first later : Nat}
    {entry entry' : Nat × α} (hlt : first < later) (hfirst : vector.entries[first]? = some entry)
    (hlater : vector.entries[later]? = some entry') : entry.1 < entry'.1 := by
  obtain ⟨hfirstSize, rfl⟩ := Array.getElem?_eq_some_iff.1 hfirst
  obtain ⟨hlaterSize, rfl⟩ := Array.getElem?_eq_some_iff.1 hlater
  exact List.pairwise_iff_getElem.1 h first later hfirstSize hlaterSize hlt

theorem Ascending.le {vector : OffsetVector α} (h : vector.Ascending) {first later : Nat}
    {entry entry' : Nat × α} (hle : first ≤ later) (hfirst : vector.entries[first]? = some entry)
    (hlater : vector.entries[later]? = some entry') : entry.1 ≤ entry'.1 := by
  rcases Nat.lt_or_eq_of_le hle with hlt | rfl
  · exact Nat.le_of_lt (h.lt hlt hfirst hlater)
  · rw [hfirst] at hlater
    cases hlater
    exact Nat.le_refl _

/-- The element at a position starts at `offset` or before it. -/
def StartsUpTo (vector : OffsetVector α) (offset position : Nat) : Prop :=
  ∀ entry, vector.entries[position]? = some entry → entry.1 ≤ offset

/-- The element at a position starts after `offset`. -/
def StartsAfter (vector : OffsetVector α) (offset position : Nat) : Prop :=
  ∀ entry, vector.entries[position]? = some entry → offset < entry.1

/-- A position between the elements up to `offset` and those after it. -/
structure Splits (vector : OffsetVector α) (offset position : Nat) : Prop where
  le_size : position ≤ vector.size
  upTo : ∀ earlier < position, vector.StartsUpTo offset earlier
  after : ∀ later ≥ position, vector.StartsAfter offset later

/-- The bisection finds the position between the two.  The interval still to be
searched separates them all the way, and the rounds are enough to close it. -/
theorem splits_bisect {vector : OffsetVector α} (h : vector.Ascending) {offset : Nat}
    (rounds low high : Nat) (horder : low ≤ high) (hsize : high ≤ vector.size)
    (hrounds : high - low < 2 ^ rounds)
    (hupTo : ∀ earlier < low, vector.StartsUpTo offset earlier)
    (hafter : ∀ later ≥ high, vector.StartsAfter offset later) :
    vector.Splits offset (bisect vector.entries offset rounds low high) := by
  induction rounds generalizing low high with
  | zero =>
    have heq : low = high := by omega
    subst heq
    exact ⟨hsize, hupTo, hafter⟩
  | succ rounds ih =>
    rw [bisect]
    by_cases hlt : low < high
    · have hmiddle : low + (high - low) / 2 < vector.entries.size := by
        have : high ≤ vector.entries.size := hsize
        omega
      have hget := Array.getElem?_eq_getElem hmiddle
      rw [Nat.pow_succ] at hrounds
      simp only [hlt, if_true, hget]
      split
      · rename_i hstart
        refine ih _ _ (by omega) hsize (by omega) ?_ hafter
        intro earlier hearlier entry hentry
        have hle := h.le (Nat.le_of_lt_succ hearlier) hentry hget
        omega
      · rename_i hstart
        refine ih _ _ (by omega) (by omega) (by omega) hupTo ?_
        intro later hlater entry hentry
        have hle := h.le hlater hget hentry
        omega
    · have heq : low = high := by omega
      subst heq
      simp only [Nat.lt_irrefl, if_false]
      exact ⟨hsize, hupTo, hafter⟩

/-- The count of ascending elements up to `offset` is where the others begin. -/
theorem splits_countUpTo {vector : OffsetVector α} (h : vector.Ascending) (offset : Nat) :
    vector.Splits offset (vector.countUpTo offset) := by
  refine splits_bisect h _ 0 _ (Nat.zero_le _) (Nat.le_refl _) Nat.lt_log2_self ?_ ?_
  · intro earlier hearlier
    omega
  · intro later hlater entry hentry
    rw [Array.getElem?_eq_none hlater] at hentry
    cases hentry

/-! ## Look-ups -/

/-- Where an element starts at `offset`, the count ends just behind it. -/
theorem countUpTo_eq {vector : OffsetVector α} (h : vector.Ascending) {offset position : Nat}
    {value : α} (hget : vector.entries[position]? = some (offset, value)) :
    vector.countUpTo offset = position + 1 := by
  have hsplits := splits_countUpTo h offset
  have hlow : position < vector.countUpTo offset := by
    refine Nat.lt_of_not_le fun hge => ?_
    have hstart := hsplits.after position hge (offset, value) hget
    exact Nat.lt_irrefl offset hstart
  have hhigh : ¬ position + 1 < vector.countUpTo offset := by
    intro hlt
    have hnext := Array.getElem?_eq_getElem (Nat.lt_of_lt_of_le hlt hsplits.le_size)
    have hstart := hsplits.upTo (position + 1) hlt _ hnext
    have hascend := h.lt (Nat.lt_succ_self position) hget hnext
    exact Nat.not_lt_of_le hstart hascend
  omega

/-- An element is found at its position when it starts at `offset`. -/
theorem find_eq_found_iff {vector : OffsetVector α} (h : vector.Ascending) {offset position : Nat}
    {value : α} :
    vector.find offset = .found position value ↔
      vector.entries[position]? = some (offset, value) := by
  constructor
  · intro hfind
    simp only [find] at hfind
    split at hfind
    · split at hfind <;> cases hfind
    · rename_i last hcount
      split at hfind
      · rename_i start value' hget
        split at hfind
        · rename_i hstart
          cases hfind
          rw [hget, hstart]
        · split at hfind <;> cases hfind
      · split at hfind <;> cases hfind
  · intro hget
    simp only [find, countUpTo_eq h hget, hget, if_true]

/-- An offset leads to the element that the vector lists there. -/
theorem find?_eq_some_iff {vector : OffsetVector α} (h : vector.Ascending) {offset : Nat}
    {value : α} : vector.find? offset = some value ↔ (offset, value) ∈ vector.toList := by
  have hfound : vector.find? offset = some value ↔
      ∃ position, vector.find offset = .found position value := by
    unfold find?
    split <;> simp_all
  rw [hfound, List.mem_iff_getElem?]
  simp only [find_eq_found_iff h, getElem?_toList]

end ClassDelta.OffsetVector
