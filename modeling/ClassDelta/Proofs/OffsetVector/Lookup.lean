import ClassDelta.Pool.Constant
import ClassDelta.Proofs.OffsetVector

/-!
# Where an offset leads

Placing values one after the other returns the offsets at which they start, and
leaves a vector that holds them (`placeAll_eq`).  An offset leads to one of
three places in it, and `LeadsTo` says to which one by the widths alone.

* `scan` goes through the values from the front and stops at the first that does
  not start before the offset.  It ends where the offset leads (`leadsTo_scan`).
* A look-up bisects.  What it counts are the elements that start at the offset or
  before it (`countUpTo_eq_countP`), and from this number it goes where the offset
  leads as well (`find_eq_of_leadsTo`).

The main statement is `lookupLaws_placeAll`, on all offsets and all values with a
width.
-/

namespace ClassDelta.OffsetVector

variable {α : Type}

section Placing

variable [Width α]

/-! ## Where the values start -/

/-- The offsets of values that lie one behind the other. -/
def starts (start : Nat) (values : List α) : List Nat :=
  (layout start values).map Prod.fst

@[simp] theorem starts_nil (start : Nat) : starts start ([] : List α) = [] := rfl

@[simp] theorem starts_cons (start : Nat) (value : α) (values : List α) :
    starts start (value :: values) = start :: starts (start + Width.width value) values := rfl

theorem length_starts (start : Nat) (values : List α) :
    (starts start values).length = values.length := by
  rw [starts, List.length_map, length_layout]

theorem starts_eq_map_range (start : Nat) (values : List α) :
    starts start values =
      (List.range values.length).map fun index => start + totalWidth (values.take index) := by
  induction values generalizing start with
  | nil => rfl
  | cons value values ih =>
    rw [starts_cons, ih, List.length_cons, List.range_succ_eq_map, List.map_cons, List.map_map]
    simp [Function.comp_def, Nat.add_assoc]

theorem le_of_mem_starts {start offset : Nat} {values : List α}
    (h : offset ∈ starts start values) : start ≤ offset := by
  obtain ⟨entry, hmem, rfl⟩ := List.mem_map.1 h
  exact (layout_bounds hmem).1

theorem lt_of_mem_starts {start offset : Nat} {values : List α}
    (hwidth : ∀ value ∈ values, 0 < Width.width value) (h : offset ∈ starts start values) :
    offset < start + totalWidth values := by
  obtain ⟨entry, hmem, rfl⟩ := List.mem_map.1 h
  have hend := (layout_bounds hmem).2
  have hvalue : entry.2 ∈ values := by
    rw [← map_snd_layout start values]
    exact List.mem_map_of_mem hmem
  have hpositive := hwidth entry.2 hvalue
  omega

/-! ## Placing values -/

/-- Place the values one after the other in a new vector.  Returns their offsets
and the vector. -/
def placeAll (start : Nat) (values : List α) : List Nat × OffsetVector α :=
  (values.mapM place).run (startingAt start)

theorem run_mapM_place (values : List α) (vector : OffsetVector α) :
    (values.mapM place).run vector = (starts vector.next values, values.foldl push vector) := by
  induction values generalizing vector with
  | nil => rfl
  | cons value values ih =>
    -- The first value is put at the next offset, and the others behind its end.
    rw [List.mapM_cons]
    exact congrArg (fun later => (vector.next :: later.1, later.2)) (ih (vector.push value))

theorem placeAll_eq (start : Nat) (values : List α) :
    placeAll start values = (starts start values, ofList start values) :=
  run_mapM_place values (startingAt start)

/-! ## Places to which an offset leads -/

/-- An offset leads to the value that starts there.  Where none does, it leads past
the end or, in front of that, between the values that start before it and the
others. -/
inductive LeadsTo (start : Nat) (values : List α) (offset : Nat) : Lookup α → Prop
  | found {index : Nat} {value : α} (hvalue : values[index]? = some value)
      (hstart : offset = start + totalWidth (values.take index)) :
      LeadsTo start values offset (.found index value)
  | gap (hfree : offset ∉ starts start values) (hinside : offset < start + totalWidth values) :
      LeadsTo start values offset (.gap ((starts start values).countP (· < offset)))
  | beyond (hend : start + totalWidth values ≤ offset) : LeadsTo start values offset .beyond

section Inversion

variable {start offset : Nat} {values : List α}

theorem leadsTo_found_iff {index : Nat} {value : α} :
    LeadsTo start values offset (.found index value) ↔
      values[index]? = some value ∧ offset = start + totalWidth (values.take index) := by
  constructor
  · intro h
    cases h with
    | found hvalue hstart => exact ⟨hvalue, hstart⟩
  · rintro ⟨hvalue, hstart⟩
    exact .found hvalue hstart

theorem leadsTo_gap_iff {before : Nat} :
    LeadsTo start values offset (.gap before) ↔
      offset ∉ starts start values ∧ offset < start + totalWidth values ∧
        before = (starts start values).countP (· < offset) := by
  constructor
  · intro h
    cases h with
    | gap hfree hinside => exact ⟨hfree, hinside, rfl⟩
  · rintro ⟨hfree, hinside, rfl⟩
    exact .gap hfree hinside

theorem leadsTo_beyond_iff :
    LeadsTo start values offset .beyond ↔ start + totalWidth values ≤ offset := by
  constructor
  · intro h
    cases h with
    | beyond hend => exact hend
  · exact .beyond

end Inversion

/-! ## The scan -/

/-- The same place with one more value in front of all others. -/
def Lookup.behindOne : Lookup α → Lookup α
  | .found index value => .found (index + 1) value
  | .gap before => .gap (before + 1)
  | .beyond => .beyond

/-- Go through the values until one of them does not start before the offset. -/
def scan (offset : Nat) : (start : Nat) → List α → Lookup α
  | start, [] => if offset < start then .gap 0 else .beyond
  | start, value :: values =>
    if offset < start then .gap 0
    else if offset = start then .found 0 value
    else (scan offset (start + Width.width value) values).behindOne

theorem LeadsTo.behindOne {start offset : Nat} {value : α} {values : List α} {lookup : Lookup α}
    (hlt : start < offset) (h : LeadsTo (start + Width.width value) values offset lookup) :
    LeadsTo start (value :: values) offset lookup.behindOne := by
  cases h with
  | found hvalue hstart =>
    refine .found (by simpa using hvalue) ?_
    rw [hstart, List.take_succ_cons, totalWidth_cons, Nat.add_assoc]
  | gap hfree hinside =>
    have hfree' : offset ∉ starts start (value :: values) := by
      simp only [starts_cons, List.mem_cons, not_or]
      exact ⟨by omega, hfree⟩
    have hgap := LeadsTo.gap hfree' (by rw [totalWidth_cons]; omega)
    rw [starts_cons, List.countP_cons_of_pos (by simpa using hlt)] at hgap
    exact hgap
  | beyond hend =>
    refine .beyond ?_
    rw [totalWidth_cons]
    omega

/-- In front of the first value there is nothing. -/
theorem leadsTo_of_lt {start offset : Nat} {values : List α} (h : offset < start) :
    LeadsTo start values offset (.gap 0) := by
  have hbehind : ∀ other ∈ starts start values, offset < other := by
    intro other hother
    exact Nat.lt_of_lt_of_le h (le_of_mem_starts hother)
  have hfree : offset ∉ starts start values := by
    intro hmem
    exact Nat.lt_irrefl offset (hbehind offset hmem)
  have hnone : (starts start values).countP (· < offset) = 0 := by
    apply List.countP_eq_zero.2
    intro other hother
    have hlt := hbehind other hother
    simp only [decide_eq_true_eq]
    omega
  rw [← hnone]
  exact .gap hfree (by omega)

theorem leadsTo_scan (start : Nat) (values : List α) (offset : Nat) :
    LeadsTo start values offset (scan offset start values) := by
  induction values generalizing start with
  | nil =>
    rw [scan]
    split
    · rename_i hlt
      exact leadsTo_of_lt hlt
    · rename_i hge
      exact .beyond (by simp; omega)
  | cons value values ih =>
    rw [scan]
    split
    · rename_i hlt
      exact leadsTo_of_lt hlt
    · rename_i hge
      split
      · rename_i heq
        exact .found rfl (by simpa using heq)
      · rename_i hne
        exact (ih (start + Width.width value)).behindOne (by omega)

end Placing

/-! ## Where the bisection ends -/

section Bisection

variable {vector : OffsetVector α} {offset position : Nat}

/-- In front of the split are the elements up to the offset and no others. -/
theorem Splits.eq_countP (h : vector.Splits offset position) :
    position = vector.toList.countP fun entry => entry.1 ≤ offset := by
  have hfront : ∀ entry ∈ vector.toList.take position, decide (entry.1 ≤ offset) = true := by
    intro entry hmem
    obtain ⟨earlier, hget⟩ := List.mem_iff_getElem?.1 hmem
    rw [List.getElem?_take, getElem?_toList] at hget
    split at hget
    · rename_i hlt
      exact decide_eq_true (h.upTo earlier hlt entry hget)
    · cases hget
  have hback : ∀ entry ∈ vector.toList.drop position, ¬ decide (entry.1 ≤ offset) = true := by
    intro entry hmem
    obtain ⟨distance, hget⟩ := List.mem_iff_getElem?.1 hmem
    rw [List.getElem?_drop, getElem?_toList] at hget
    have hstart := h.after (position + distance) (Nat.le_add_right _ _) entry hget
    simp only [decide_eq_true_eq]
    omega
  have hsize : position ≤ vector.toList.length := h.le_size
  rw [← List.take_append_drop position vector.toList, List.countP_append,
    List.countP_eq_length.2 hfront, List.countP_eq_zero.2 hback, List.length_take]
  omega

theorem countUpTo_eq_countP (h : vector.Ascending) (offset : Nat) :
    vector.countUpTo offset = vector.toList.countP fun entry => entry.1 ≤ offset :=
  (splits_countUpTo h offset).eq_countP

/-- Where no element starts, the count says all. -/
theorem find_of_absent (habsent : ∀ value, (offset, value) ∉ vector.toList) :
    vector.find offset =
      if vector.countUpTo offset = vector.size ∧ vector.next ≤ offset then .beyond
      else .gap (vector.countUpTo offset) := by
  simp only [find]
  cases hcount : vector.countUpTo offset with
  | zero => rfl
  | succ last =>
    -- Only the last of the counted elements can start at the offset itself.
    cases hget : vector.entries[last]? with
    | none => simp only [hget]
    | some entry =>
      have hne : entry.1 ≠ offset := by
        rintro rfl
        exact habsent entry.2 (List.mem_of_getElem? ((getElem?_toList vector last).trans hget))
      simp only [hget, hne, if_false]

end Bisection

section Agreement

variable [Width α] {start offset : Nat} {values : List α} {lookup : Lookup α}

theorem absent_of_not_mem_starts (hfree : offset ∉ starts start values) (value : α) :
    (offset, value) ∉ (ofList start values).toList := by
  rw [toList_ofList]
  intro hmem
  exact hfree (List.mem_map_of_mem hmem)

/-- Where no value starts, the values up to the offset are those that start before it. -/
theorem countUpTo_ofList (hwidth : ∀ value ∈ values, 0 < Width.width value)
    (hfree : offset ∉ starts start values) :
    (ofList start values).countUpTo offset = (starts start values).countP (· < offset) := by
  rw [countUpTo_eq_countP (ascending_ofList start hwidth), toList_ofList, starts, List.countP_map]
  apply List.countP_congr
  intro entry hmem
  have hne : entry.1 ≠ offset := by
    rintro rfl
    exact hfree (List.mem_map_of_mem hmem)
  simp only [Function.comp_apply, decide_eq_true_eq]
  omega

/-- A look-up ends where the offset leads. -/
theorem find_eq_of_leadsTo (hwidth : ∀ value ∈ values, 0 < Width.width value)
    (h : LeadsTo start values offset lookup) : (ofList start values).find offset = lookup := by
  have hascending := ascending_ofList start hwidth
  cases h with
  | found hvalue hstart =>
    rw [find_eq_found_iff hascending, ← getElem?_toList, toList_ofList, getElem?_layout, hvalue,
      hstart]
    rfl
  | gap hfree hinside =>
    have hnext : ¬ (ofList start values).next ≤ offset := by
      rw [next_ofList]
      omega
    rw [find_of_absent (absent_of_not_mem_starts hfree), countUpTo_ofList hwidth hfree,
      if_neg (fun hend => hnext hend.2)]
  | beyond hend =>
    have hbefore : ∀ other ∈ starts start values, other < offset := by
      intro other hother
      exact Nat.lt_of_lt_of_le (lt_of_mem_starts hwidth hother) hend
    have hfree : offset ∉ starts start values := by
      intro hmem
      exact Nat.lt_irrefl offset (hbefore offset hmem)
    have hall : (ofList start values).countUpTo offset = (ofList start values).size := by
      rw [countUpTo_ofList hwidth hfree, size_ofList, ← length_starts start values]
      exact List.countP_eq_length.2 (by simpa using hbefore)
    rw [find_of_absent (absent_of_not_mem_starts hfree), if_pos ⟨hall, by simpa using hend⟩]

/-- The bisection finds what the scan finds. -/
theorem find_eq_scan (hwidth : ∀ value ∈ values, 0 < Width.width value) (offset : Nat) :
    (ofList start values).find offset = scan offset start values :=
  find_eq_of_leadsTo hwidth (leadsTo_scan start values offset)

theorem find_eq_iff_leadsTo (hwidth : ∀ value ∈ values, 0 < Width.width value) :
    (ofList start values).find offset = lookup ↔ LeadsTo start values offset lookup := by
  constructor
  · intro hfind
    rw [← hfind, find_eq_scan hwidth]
    exact leadsTo_scan start values offset
  · exact find_eq_of_leadsTo hwidth

end Agreement

/-! ## All offsets -/

/-- What placing the values returns, and how the vector with all of them answers. -/
structure LookupLaws [Width α] (start : Nat) (values : List α) (offsets : List Nat)
    (vector : OffsetVector α) : Prop where
  /-- The next offset is behind all values. -/
  next_eq : vector.next = start + (values.map Width.width).sum
  /-- Each value was given the offset that was the next one before it was placed. -/
  offsets_eq : offsets =
    (List.range values.length).map fun index => (placeAll start (values.take index)).2.next
  /-- All offsets are below the next one, so a word that can hold this one can hold
  all of them. -/
  offset_lt : ∀ offset ∈ offsets, offset < vector.next
  /-- A value is found where it starts, which is behind those in front of it. -/
  found_iff : ∀ offset index value, vector.find offset = .found index value ↔
    values[index]? = some value ∧ offset = start + ((values.take index).map Width.width).sum
  beyond_iff : ∀ offset, vector.find offset = .beyond ↔ vector.next ≤ offset
  /-- All other offsets are between the values that start before them and the rest. -/
  gap_iff : ∀ offset before, vector.find offset = .gap before ↔
    offset ∉ offsets ∧ offset < vector.next ∧ before = offsets.countP (· < offset)
  eq_scan : ∀ offset, vector.find offset = scan offset start values

/-- Placed values are found where they were put.  An offset at which none of them
starts leads past the end or between two of them, and a scan from the front says
the same. -/
theorem lookupLaws_placeAll [Width α] (start : Nat) (values : List α)
    (hwidth : ∀ value ∈ values, 0 < Width.width value) :
    LookupLaws start values (placeAll start values).1 (placeAll start values).2 := by
  rw [placeAll_eq]
  refine ⟨?next, ?offsets, ?below, ?found, ?beyond, ?gap, ?scan⟩
  case next => rw [next_ofList, totalWidth_eq_sum]
  case offsets => simp only [starts_eq_map_range, placeAll_eq, next_ofList]
  case below =>
    intro offset hmem
    rw [next_ofList]
    exact lt_of_mem_starts hwidth hmem
  case found =>
    intro offset index value
    rw [find_eq_iff_leadsTo hwidth, leadsTo_found_iff, totalWidth_eq_sum]
  case beyond =>
    intro offset
    rw [find_eq_iff_leadsTo hwidth, leadsTo_beyond_iff, next_ofList]
  case gap =>
    intro offset before
    rw [find_eq_iff_leadsTo hwidth, leadsTo_gap_iff, next_ofList]
  case scan => exact find_eq_scan hwidth

/-- Wide entries leave holes, also at the end. -/
theorem lookupLaws_placeAll_holes :
    let values : List Constant := [.integer 1, .long 2, .integer 3, .long 4]
    let vector := (placeAll 1 values).2
    (∀ value ∈ values, 0 < Width.width value) ∧
      (placeAll 1 values).1 = [1, 2, 4, 5] ∧ vector.next = 7 ∧
      vector.find 0 = .gap 0 ∧ vector.find 2 = .found 1 (.long 2) ∧ vector.find 3 = .gap 2 ∧
      vector.find 6 = .gap 4 ∧ vector.find 7 = .beyond := by
  intro values vector
  have hwidth : ∀ value ∈ values, 0 < Width.width value := by decide
  have laws := lookupLaws_placeAll 1 values hwidth
  have hoffsets : (placeAll 1 values).1 = [1, 2, 4, 5] := by rfl
  have hnext : vector.next = 7 := laws.next_eq
  refine ⟨hwidth, hoffsets, hnext, ?_, ?_, ?_, ?_, ?_⟩
  · exact (laws.gap_iff 0 0).2 (by rw [hoffsets, hnext]; decide)
  · exact (laws.found_iff 2 1 (.long 2)).2 ⟨rfl, rfl⟩
  · exact (laws.gap_iff 3 2).2 (by rw [hoffsets, hnext]; decide)
  · exact (laws.gap_iff 6 4).2 (by rw [hoffsets, hnext]; decide)
  · exact (laws.beyond_iff 7).2 (Nat.le_of_eq hnext)

end ClassDelta.OffsetVector
