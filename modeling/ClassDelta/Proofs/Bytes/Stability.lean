import ClassDelta.AccessFlags
import ClassDelta.Proofs.Bytes.Reading

/-!
# Reading longer inputs

A reader is `Stable` when more bytes behind its input change nothing of what it
does.  A value stays the value, with the added bytes behind those left over.
An error stays the error as well, unless it says that the input was too short,
in which case the added bytes may be what was missing.

Every way of putting readers together keeps readers stable.  What a stable
reader does on a part of an input follows from what it does on the whole
(`Stable.cutShort_of_ok`), so no cut has to be looked for inside of a format.
-/

namespace ClassDelta

/-- The cursor with more bytes at the end of its input. -/
def Cursor.extend (cursor : Cursor) (suffix : Bytes) : Cursor :=
  ⟨cursor.position, cursor.rest ++ suffix⟩

namespace ParseError

/-- The input ended before what was being read did. -/
inductive IsCutShort : ParseError → Prop
  | input (offset needed available : Nat) : IsCutShort (.truncated offset needed available)
  | pool (index : PoolIndex) : IsCutShort (.malformedPool index .truncated)

/-- What was read up to the error is wrong, whatever comes behind it. -/
inductive IsFinal : ParseError → Prop
  | badMagic (magic : UInt32) : IsFinal (.malformedClass (.badMagic magic))
  | version (found : Version) (supported : VersionRange) :
    IsFinal (.unsupportedVersion found supported)
  | pool (index : PoolIndex) {defect : PoolDefect} (h : defect ≠ .truncated) :
    IsFinal (.malformedPool index defect)

theorem IsFinal.not_isCutShort {error : ParseError} (h : error.IsFinal) : ¬ error.IsCutShort := by
  cases h with
  | badMagic magic => intro hcut; cases hcut
  | version found supported => intro hcut; cases hcut
  | pool index hdefect =>
    intro hcut
    cases hcut
    exact hdefect rfl

end ParseError

namespace Reader

variable {α β : Type}

/-! ## Stable readers -/

/-- More bytes behind the input change nothing, unless there were too few. -/
structure Stable (reader : Reader α) : Prop where
  ok : ∀ {cursor value after}, reader cursor = .ok value after →
    ∀ suffix, reader (cursor.extend suffix) = .ok value (after.extend suffix)
  error : ∀ {cursor error after}, reader cursor = .error error after →
    error.IsCutShort ∨ error.IsFinal ∧
      ∀ suffix, reader (cursor.extend suffix) = .error error (after.extend suffix)

/-- Where a stable reader needs the whole input, a shorter one is too short: a
value would leave the missing bytes over, and a final error would remain one. -/
theorem Stable.cutShort_of_ok {reader : Reader α} (h : reader.Stable) {cursor : Cursor}
    {value : α} {suffix : Bytes} {position : Nat} (hsuffix : suffix ≠ [])
    (hread : reader (cursor.extend suffix) = .ok value ⟨position, []⟩) :
    ∃ error after, reader cursor = .error error after ∧ error.IsCutShort := by
  cases hshort : reader cursor with
  | ok value after =>
    have hwhole := h.ok hshort suffix
    rw [hread] at hwhole
    have hrest : [] = after.rest ++ suffix :=
      congrArg Cursor.rest (EStateM.Result.ok.inj hwhole).2
    exact absurd (List.append_eq_nil_iff.1 hrest.symm).2 hsuffix
  | error error after =>
    rcases h.error hshort with hcut | ⟨_, hstays⟩
    · exact ⟨error, after, rfl, hcut⟩
    · have hwhole := hstays suffix
      rw [hread] at hwhole
      cases hwhole

theorem stable_pure (value : α) : Stable (pure value) where
  ok hread suffix := by
    cases hread
    rfl
  error hread := by cases hread

theorem stable_throw {error : ParseError} (h : error.IsFinal) : Stable (throw error : Reader α) where
  ok hread := by cases hread
  error hread := by
    cases hread
    exact .inr ⟨h, fun _ => rfl⟩

/-! ## Combinations -/

theorem Stable.bind {reader : Reader α} {next : α → Reader β} (hreader : reader.Stable)
    (hnext : ∀ value, (next value).Stable) : (reader >>= next).Stable where
  ok hread suffix := by
    obtain ⟨value, between, hvalue, hresult⟩ := Stateful.bind_eq_ok hread
    rw [Stateful.bind_of_ok (hreader.ok hvalue suffix)]
    exact (hnext value).ok hresult suffix
  error hread := by
    rcases Stateful.bind_eq_error hread with hfails | ⟨value, between, hvalue, hfails⟩
    · rcases hreader.error hfails with hcut | ⟨hfinal, hstays⟩
      · exact .inl hcut
      · exact .inr ⟨hfinal, fun suffix => Stateful.bind_of_error (hstays suffix) next⟩
    · rcases (hnext value).error hfails with hcut | ⟨hfinal, hstays⟩
      · exact .inl hcut
      · refine .inr ⟨hfinal, fun suffix => ?_⟩
        rw [Stateful.bind_of_ok (hreader.ok hvalue suffix)]
        exact hstays suffix

theorem Stable.map {reader : Reader α} (h : reader.Stable) (f : α → β) : (f <$> reader).Stable := by
  rw [map_eq_pure_bind]
  exact h.bind fun value => stable_pure (f value)

/-- Errors may be reworded as long as final ones are left alone. -/
theorem Stable.mapError {reader : Reader α} {reword : ParseError → ParseError}
    (h : reader.Stable) (hcut : ∀ error, error.IsCutShort → (reword error).IsCutShort)
    (hfinal : ∀ error, error.IsFinal → reword error = error) :
    (reader.mapError reword).Stable where
  ok {cursor value after} hread suffix := by
    unfold Reader.mapError at hread ⊢
    cases hresult : reader cursor with
    | ok found later =>
      rw [hresult] at hread
      cases hread
      rw [h.ok hresult suffix]
    | error error later =>
      rw [hresult] at hread
      cases hread
  error {cursor error after} hread := by
    unfold Reader.mapError at hread ⊢
    cases hresult : reader cursor with
    | ok value later =>
      rw [hresult] at hread
      cases hread
    | error found later =>
      rw [hresult] at hread
      cases hread
      rcases h.error hresult with hshort | ⟨hfound, hstays⟩
      · exact .inl (hcut found hshort)
      · rw [hfinal found hfound]
        refine .inr ⟨hfound, fun suffix => ?_⟩
        rw [hstays suffix]
        simp only [hfinal found hfound]

/-! ## Bounds-checked reads -/

/-- The bytes taken stand in front of any that are added, so their value stays the
same. -/
theorem Demands.stable {reader : Reader α} {needed width : Nat} {spells : Bytes → α → Prop}
    (h : reader.Demands needed width spells) (hwidth : width ≤ needed)
    (hvalue : ∀ {bytes first second}, spells bytes first → spells bytes second → first = second) :
    reader.Stable where
  ok {cursor value after} hread suffix := by
    obtain ⟨henough, rfl, hspells⟩ := h.of_eq_ok hread
    have hfront : width ≤ cursor.rest.length := Nat.le_trans hwidth henough
    have hlonger : needed ≤ (cursor.extend suffix).remaining := by
      show needed ≤ (cursor.rest ++ suffix).length
      rw [List.length_append]
      exact Nat.le_add_right_of_le henough
    obtain ⟨found, hfound, hspells'⟩ := h.ok (cursor.extend suffix) hlonger
    have hsame : (cursor.extend suffix).rest.take width = cursor.rest.take width :=
      List.take_append_of_le_length hfront
    rw [hsame] at hspells'
    rw [hfound, hvalue hspells' hspells, Cursor.skip, Cursor.extend, Cursor.extend,
      List.drop_append_of_le_length hfront]
    rfl
  error {cursor error after} hread := by
    rcases Nat.lt_or_ge cursor.remaining needed with hshort | henough
    · rw [h.error cursor hshort] at hread
      cases hread
      exact .inl (.input _ _ _)
    · obtain ⟨found, hfound, -⟩ := h.ok cursor henough
      rw [hfound] at hread
      cases hread

theorem stable_expect (count size : Nat) : (expect count size).Stable :=
  (demands_expect count size).stable (Nat.zero_le _) fun _ _ => rfl

/-- The count has to stay below the largest request, as only then are there that many
bytes. -/
theorem stable_take {count : Nat} (hcount : count ≤ largestRequest) : (take count).Stable :=
  (demands_take hcount).stable (Nat.le_refl _) fun hfirst hsecond => hfirst.1.trans hsecond.1.symm

theorem stable_number {width : Nat} (hwidth : width ≤ largestRequest) : (number width).Stable :=
  (stable_take hwidth).bind fun bytes => stable_pure (BigEndian.decode bytes)

theorem stable_repeated {reader : Reader α} (h : reader.Stable) (count : Nat) (before : List α) :
    (repeated reader count before).Stable := by
  induction count generalizing before with
  | zero => exact stable_pure before.reverse
  | succ count ih => exact h.bind fun value => ih (value :: before)

end Reader

/-! ## Codecs -/

namespace Codec

variable {α β : Type}

theorem stable_via {codec : Codec α} (h : codec.read.Stable) (view : β → α) (of : α → β) :
    (codec.via view of).read.Stable :=
  h.map of

theorem stable_pair {first : Codec α} {second : Codec β} (hfirst : first.read.Stable)
    (hsecond : second.read.Stable) : (first.pair second).read.Stable :=
  hfirst.bind fun left => hsecond.bind fun right => Reader.stable_pure (left, right)

theorem stable_uint8 : uint8.read.Stable := stable_via (Reader.stable_number (by decide)) _ _

theorem stable_uint16 : uint16.read.Stable := stable_via (Reader.stable_number (by decide)) _ _

theorem stable_uint32 : uint32.read.Stable := stable_via (Reader.stable_number (by decide)) _ _

theorem stable_uint64 : uint64.read.Stable := stable_via (Reader.stable_number (by decide)) _ _

theorem stable_int32 : int32.read.Stable := stable_via stable_uint32 _ _

theorem stable_int64 : int64.read.Stable := stable_via stable_uint64 _ _

/-- The size check in front of the elements fails with the same kind of error
as the read of a missing element. -/
theorem stable_counted {codec : Codec α} (h : codec.read.Stable) : codec.counted.read.Stable :=
  stable_uint16.bind fun count =>
    (Reader.stable_expect count.toNat codec.minSize).bind fun _ =>
      Reader.stable_repeated h count.toNat []

theorem stable_version : Version.codec.read.Stable :=
  stable_via (stable_pair stable_uint16 stable_uint16) _ _

theorem stable_flags (scope : FlagScope) : (Flags.codec scope).read.Stable :=
  stable_via stable_uint16 _ _

end Codec

end ClassDelta
