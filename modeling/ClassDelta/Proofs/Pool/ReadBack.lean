import ClassDelta.Proofs.Pool.Building

/-!
# Reading back what was built

A finished pool should be the pool that reading its written form gives.  In
general that is so for the pools that fit, and for no others
(`Pool.readsBack_iff_fits`).

Interning always leaves an indexed pool in which every reference leads to a
text, even if some of the calls found no room (`PoolBuilder.linked_after`).
What remains is the length of texts, which is written as a 16-bit number:
`PoolBuilder.readsBack_after_iff`.  Nothing refuses a text that is too long,
and its length is cut off (`PoolBuilder.not_readsBack_longText`).
-/

namespace ClassDelta

/-! ## Pools that read back -/

namespace Pool

/-- The pool is what reading its written form gives, and no byte is left over. -/
def ReadsBack (pool : Pool) : Prop :=
  Pool.read (.start pool.write) = .ok pool ⟨pool.write.length, []⟩

theorem Fits.readsBack {pool : Pool} (h : pool.Fits) : pool.ReadsBack := by
  have hread := reads_write h 0 []
  rw [List.append_nil, Nat.zero_add] at hread
  exact hread

/-- Only what fits can be the result of reading. -/
theorem readsBack_iff_fits {pool : Pool} : pool.ReadsBack ↔ pool.Fits :=
  ⟨fun hread => returns_read _ _ _ hread, Fits.readsBack⟩

end Pool

/-! ## Pools that were built by interning -/

namespace PoolBuilder

/-- The references that interning makes lead to texts at any time. -/
theorem refersToTexts_after {history : List PoolRequest}
    (h : ∀ request ∈ history, request.IsIntern) :
    ∀ constant ∈ (after history).pool.constants, constant.RefersToTexts (after history).pool := by
  have hsound : (after history).Sound fun pool constant => constant.RefersToTexts pool :=
    sound_after Constant.RefersToTexts.persistent history fun request hmem _ _ =>
      (h request hmem).refersToTexts
  exact hsound.good

/-- So they lead to entries. -/
theorem linked_after {history : List PoolRequest} (h : ∀ request ∈ history, request.IsIntern) :
    ∀ constant ∈ (after history).pool.constants, ∀ index ∈ constant.references,
      ∃ target, (index, target) ∈ (after history).pool.toList :=
  fun constant hmem => (refersToTexts_after h constant hmem).linked (isSound_after history).indexed

/-- A pool that was built by interning reads back if and only if no text in it
is longer than a 16-bit number can say.  Calls that found no room do no harm. -/
theorem readsBack_after_iff {history : List PoolRequest}
    (h : ∀ request ∈ history, request.IsIntern) :
    (after history).pool.ReadsBack ↔
      ∀ text, Constant.utf8 text ∈ (after history).pool.constants →
        (ModifiedUtf8.encode text).length ≤ 65535 := by
  rw [Pool.readsBack_iff_fits]
  constructor
  · intro hfits text hmem
    exact hfits.entriesFit (.utf8 text) hmem
  · intro htexts
    refine ⟨(isSound_after history).indexed, linked_after h, fun constant hmem => ?_⟩
    cases constant with
    | utf8 text => exact htexts text hmem
    | _ => trivial

/-- A class is named, a two-slot value follows, and the name is asked for once
more. -/
theorem readsBack_after_iff_mixed :
    let history : List PoolRequest :=
      [.className "a/B", .long 7, .nameAndType "a/B" "I", .integer 7]
    (∀ request ∈ history, request.IsIntern) ∧
      (after history).pool.constants = [.utf8 "a/B", .named .className 1, .long 7, .utf8 "I",
        .nameAndType 1 5, .integer 7] ∧
      (after history).pool.ReadsBack := by
  intro history
  have hintern : ∀ request ∈ history, request.IsIntern := by decide
  have hconstants : (after history).pool.constants = [.utf8 "a/B", .named .className 1, .long 7,
      .utf8 "I", .nameAndType 1 5, .integer 7] := by decide
  refine ⟨hintern, hconstants, (readsBack_after_iff hintern).2 fun text hmem => ?_⟩
  rw [hconstants] at hmem
  simp only [List.mem_cons, Constant.utf8.injEq, reduceCtorEq, List.not_mem_nil, or_false,
    false_or] at hmem
  rcases hmem with rfl | rfl
  · decide
  · decide

/-! ## A text that is too long -/

theorem pool_after_text (value : String) :
    (after [.text value]).pool = Pool.ofConstants [.utf8 value] := rfl

theorem encode_replicate (count : Nat) :
    ModifiedUtf8.encode (String.ofList (List.replicate count 'a')) = List.replicate count 97 := by
  have hchar : ModifiedUtf8.encodeChar 'a' = [97] := by decide
  rw [ModifiedUtf8.encode, String.toList_ofList]
  induction count with
  | zero => rfl
  | succ count ih =>
    rw [List.replicate_succ, List.flatMap_cons, ih, hchar]
    rfl

/-- A length of 65536 is written as zero, which is the length of the empty
text. -/
theorem write_of_length_eq {text : String} (h : (ModifiedUtf8.encode text).length = 65536) :
    (Pool.ofConstants [.utf8 text]).write =
      (Pool.ofConstants [.utf8 ""]).write ++ ModifiedUtf8.encode text := by
  have hcut : (UInt16.ofNat 65536) = UInt16.ofNat (ModifiedUtf8.encode "").length := by decide
  have hpayload : (Constant.utf8 text).payload =
      (Constant.utf8 "").payload ++ ModifiedUtf8.encode text := by
    rw [Constant.payload, Constant.payload, h, hcut]
    rfl
  have hslots : (Pool.ofConstants [.utf8 text]).slotCount =
      (Pool.ofConstants [.utf8 ""]).slotCount := rfl
  rw [Pool.write_eq, Pool.write_eq, Pool.constants_ofConstants, Pool.constants_ofConstants,
    List.flatMap_singleton, List.flatMap_singleton, Constant.write, Constant.write, hpayload,
    hslots, List.append_assoc, List.append_assoc]
  rfl

/-- What is read back is the empty text, and the characters are left over. -/
theorem not_readsBack_longText :
    let history := [PoolRequest.text (String.ofList (List.replicate 65536 'a'))]
    (∀ request ∈ history, request.IsIntern) ∧ ¬ (after history).pool.ReadsBack ∧
      Pool.read (.start (after history).pool.write) =
        .ok (Pool.ofConstants [.utf8 ""]) ⟨5, List.replicate 65536 97⟩ := by
  intro history
  have hlength : (ModifiedUtf8.encode (String.ofList (List.replicate 65536 'a'))).length =
      65536 := by
    rw [encode_replicate, List.length_replicate]
  have hread : Pool.read (.start (after history).pool.write) =
      .ok (Pool.ofConstants [.utf8 ""]) ⟨5, List.replicate 65536 97⟩ := by
    have hempty : (Pool.ofConstants [.utf8 ""]).Fits := ⟨Pool.isIndexed_ofConstants (by decide),
      by simp [Constant.references], by simp [Constant.Fits, ModifiedUtf8.encode]⟩
    rw [pool_after_text, write_of_length_eq hlength, encode_replicate]
    exact Pool.reads_write hempty 0 (List.replicate 65536 97)
  refine ⟨fun request hmem => ?_, fun hback => ?_, hread⟩
  · obtain rfl := List.mem_singleton.1 hmem
    trivial
  · have hfits := Pool.readsBack_iff_fits.1 hback
    rw [pool_after_text] at hfits
    have hmem : Constant.utf8 (String.ofList (List.replicate 65536 'a')) ∈
        (Pool.ofConstants [.utf8 (String.ofList (List.replicate 65536 'a'))]).constants := by
      rw [Pool.constants_ofConstants]
      exact List.mem_cons_self
    have hfit := hfits.entriesFit _ hmem
    rw [Constant.Fits, hlength] at hfit
    omega

end PoolBuilder

end ClassDelta
