import ClassDelta.Bytes.BigEndian

/-!
# Bytes that are written again

A file that was read and is written again can come out different where its
bytes say more than what was read from them.  `Rewrites new old canonical` says
of a part of a file that writing never makes it longer, and that it leaves the
part alone exactly if that part was canonical.

Parts that stand one behind the other cannot make up for each other: since none
gets longer, the whole is the same only if every part is (`Rewrites.append`,
`Rewrites.flatMap`).
-/

namespace ClassDelta

/-- The new bytes are not more than the old ones, and the same as these exactly
if the old ones were canonical. -/
structure Rewrites (new old : Bytes) (canonical : Prop) : Prop where
  length_le : new.length ≤ old.length
  eq_iff : new = old ↔ canonical

namespace Rewrites

variable {new new' old old' : Bytes} {canonical canonical' : Prop}

theorem of_eq (heq : new = old) (h : canonical) : Rewrites new old canonical where
  length_le := Nat.le_of_eq (congrArg List.length heq)
  eq_iff := iff_of_true heq h

theorem of_shorter (hlt : new.length < old.length) (h : ¬ canonical) :
    Rewrites new old canonical where
  length_le := Nat.le_of_lt hlt
  eq_iff := by
    refine iff_of_false ?_ h
    rintro rfl
    exact Nat.lt_irrefl _ hlt

theorem congr (h : Rewrites new old canonical) (hiff : canonical ↔ canonical') :
    Rewrites new old canonical' :=
  ⟨h.length_le, h.eq_iff.trans hiff⟩

/-- Of two parts that do not get longer, neither can get shorter when the whole
keeps its length. -/
theorem append (h : Rewrites new old canonical) (h' : Rewrites new' old' canonical') :
    Rewrites (new ++ new') (old ++ old') (canonical ∧ canonical') where
  length_le := by
    have hfirst := h.length_le
    have hsecond := h'.length_le
    rw [List.length_append, List.length_append]
    omega
  eq_iff := by
    rw [← h.eq_iff, ← h'.eq_iff]
    constructor
    · intro heq
      have hfirst := h.length_le
      have hsecond := h'.length_le
      have hlength := congrArg List.length heq
      rw [List.length_append, List.length_append] at hlength
      exact List.append_inj heq (by omega)
    · rintro ⟨rfl, rfl⟩
      rfl

/-- The same for any number of parts. -/
theorem flatMap {α : Type} {write write' : α → Bytes} {canonical : α → Prop} (values : List α)
    (h : ∀ value ∈ values, Rewrites (write value) (write' value) (canonical value)) :
    Rewrites (values.flatMap write) (values.flatMap write') (∀ value ∈ values, canonical value) := by
  induction values with
  | nil => exact of_eq rfl (by simp)
  | cons value values ih =>
    have hlater := ih fun later hmem => h later (List.mem_cons_of_mem _ hmem)
    rw [List.flatMap_cons, List.flatMap_cons]
    exact ((h value (List.mem_cons_self ..)).append hlater).congr List.forall_mem_cons.symm

end Rewrites

end ClassDelta
