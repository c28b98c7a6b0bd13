import ClassDelta.Proofs.Bytes.Normalising

/-!
# Inputs a reader fails on

`Reader.Fails` says that a reader fails on a whole input, wherever that input
stands, and what its error is.  It is the counterpart of `Reader.Reads`: a
sequence of two readers fails where the first one does, or where the second one
does behind bytes that the first one reads.

Numbers, and what is put together from them alone, fail for one reason only: the
input is too short (`Reader.IsTotal`).  The same goes for lists of them, whose
size is up to the count in front (`Codec.isSized_counted`).
-/

namespace ClassDelta

/-- The error says that the input ended too soon. -/
def ParseError.IsTruncated (error : ParseError) : Prop :=
  ∃ offset needed available, error = .truncated offset needed available

namespace Reader

variable {α β : Type}

/-- On these bytes the reader fails, with such an error. -/
def Fails (reader : Reader α) (bytes : Bytes) (such : ParseError → Prop) : Prop :=
  ∀ position : Nat, ∃ error after, reader ⟨position, bytes⟩ = .error error after ∧ such error

theorem Fails.mono {reader : Reader α} {bytes : Bytes} {first second : ParseError → Prop}
    (h : reader.Fails bytes first) (himp : ∀ error, first error → second error) :
    reader.Fails bytes second := by
  intro position
  obtain ⟨error, after, hread, hsuch⟩ := h position
  exact ⟨error, after, hread, himp error hsuch⟩

theorem Fails.bind {reader : Reader α} {bytes : Bytes} {such : ParseError → Prop}
    (h : reader.Fails bytes such) (next : α → Reader β) : (reader >>= next).Fails bytes such := by
  intro position
  obtain ⟨error, after, hread, hsuch⟩ := h position
  exact ⟨error, after, Stateful.bind_of_error hread next, hsuch⟩

/-- The second reader fails on what the first one leaves. -/
theorem Reads.fails {reader : Reader α} {next : α → Reader β} {front back : Bytes} {value : α}
    {such : ParseError → Prop} (hfront : reader.Reads front value)
    (hback : (next value).Fails back such) : (reader >>= next).Fails (front ++ back) such := by
  intro position
  obtain ⟨error, after, hread, hsuch⟩ := hback (position + front.length)
  refine ⟨error, after, ?_, hsuch⟩
  rw [Stateful.bind_of_ok (hfront position back)]
  exact hread

theorem Fails.mapError {reader : Reader α} {bytes : Bytes} {first second : ParseError → Prop}
    (h : reader.Fails bytes first) {reword : ParseError → ParseError}
    (hreword : ∀ error, first error → second (reword error)) :
    (reader.mapError reword).Fails bytes second := by
  intro position
  obtain ⟨error, after, hread, hsuch⟩ := h position
  refine ⟨reword error, after, ?_, hreword error hsuch⟩
  unfold Reader.mapError
  rw [hread]

/-- A check passes where that many bytes do follow. -/
theorem expect_of_le {count size : Nat} {cursor : Cursor}
    (henough : count * size ≤ cursor.rest.length) : expect count size cursor = .ok () cursor := by
  obtain ⟨_, hexpect, -⟩ := (demands_expect count size).ok cursor
    (Nat.le_trans (Nat.min_le_left _ _) henough)
  exact hexpect

/-- A reader that asks first finds a shorter input too short. -/
theorem Demands.fails {reader : Reader α} {needed width : Nat} {spells : Bytes → α → Prop}
    (h : reader.Demands needed width spells) {bytes : Bytes} (hshort : bytes.length < needed) :
    reader.Fails bytes ParseError.IsTruncated := by
  intro position
  exact ⟨_, _, h.error ⟨position, bytes⟩ hshort, _, _, _, rfl⟩

theorem fails_expect {count size : Nat} (hsize : count * size ≤ largestRequest) {bytes : Bytes}
    (hshort : bytes.length < count * size) :
    (expect count size).Fails bytes ParseError.IsTruncated :=
  (demands_expect count size).fails (Nat.lt_min.2 ⟨hshort, Nat.lt_of_lt_of_le hshort hsize⟩)

theorem fails_take {count : Nat} (hcount : count ≤ largestRequest) {bytes : Bytes}
    (hshort : bytes.length < count) : (take count).Fails bytes ParseError.IsTruncated :=
  (demands_take hcount).fails hshort

/-! ## Readers of a fixed size -/

/-- The reader takes that many bytes, whatever they are, and fails on less. -/
structure IsTotal (reader : Reader α) (size : Nat) : Prop where
  ok : ∀ cursor : Cursor, size ≤ cursor.rest.length → ∃ value after,
    reader cursor = .ok value after ∧ cursor.rest.length = size + after.rest.length
  fails : ∀ bytes : Bytes, bytes.length < size → reader.Fails bytes ParseError.IsTruncated

theorem isTotal_pure (value : α) : (pure value : Reader α).IsTotal 0 where
  ok cursor _ := ⟨value, cursor, rfl, (Nat.zero_add _).symm⟩
  fails _ hshort := absurd hshort (Nat.not_lt_zero _)

theorem IsTotal.bind {reader : Reader α} {next : α → Reader β} {size later : Nat}
    (h : reader.IsTotal size) (hnext : ∀ value, (next value).IsTotal later) :
    (reader >>= next).IsTotal (size + later) where
  ok cursor henough := by
    obtain ⟨value, between, hread, hlength⟩ := h.ok cursor (by omega)
    obtain ⟨result, after, hresult, hrest⟩ := (hnext value).ok between (by omega)
    refine ⟨result, after, ?_, by omega⟩
    rw [Stateful.bind_of_ok hread]
    exact hresult
  fails bytes hshort := by
    by_cases hfirst : bytes.length < size
    · exact (h.fails bytes hfirst).bind next
    · intro position
      obtain ⟨value, between, hread, hlength⟩ := h.ok ⟨position, bytes⟩ (Nat.le_of_not_lt hfirst)
      have hlength : bytes.length = size + between.rest.length := hlength
      rw [Stateful.bind_of_ok hread]
      exact (hnext value).fails between.rest (by omega) between.position

theorem IsTotal.map {reader : Reader α} {size : Nat} (h : reader.IsTotal size) (f : α → β) :
    (f <$> reader).IsTotal size := by
  rw [map_eq_pure_bind]
  exact h.bind fun value => isTotal_pure (f value)

theorem Demands.isTotal {reader : Reader α} {size : Nat} {spells : Bytes → α → Prop}
    (h : reader.Demands size size spells) : reader.IsTotal size where
  ok cursor henough := by
    obtain ⟨value, hread, -⟩ := h.ok cursor henough
    refine ⟨value, _, hread, ?_⟩
    rw [Cursor.skip, List.length_drop, Nat.add_sub_cancel' henough]
  fails _ hshort := h.fails hshort

theorem isTotal_take {count : Nat} (hcount : count ≤ largestRequest) :
    (take count).IsTotal count :=
  (demands_take hcount).isTotal

/-- Values of a fixed size take up their number times that size. -/
theorem IsTotal.repeated {reader : Reader α} {size : Nat} (h : reader.IsTotal size) (count : Nat)
    (before : List α) : (repeated reader count before).IsTotal (count * size) := by
  induction count generalizing before with
  | zero =>
    rw [Nat.zero_mul]
    exact isTotal_pure before.reverse
  | succ count ih =>
    rw [Nat.succ_mul, Nat.add_comm (count * size)]
    exact h.bind fun value => ih (value :: before)

/-! ## Readers that are told the size -/

/-- The reader takes as many bytes as `size` makes of the bytes in front of it, and
fails on less. -/
structure IsSized (reader : Reader α) (size : Bytes → Nat) : Prop where
  ok : ∀ cursor : Cursor, size cursor.rest ≤ cursor.rest.length → ∃ value after,
    reader cursor = .ok value after ∧ cursor.rest.length = size cursor.rest + after.rest.length
  fails : ∀ bytes : Bytes, bytes.length < size bytes → reader.Fails bytes ParseError.IsTruncated

theorem IsTotal.isSized {reader : Reader α} {size : Nat} (h : reader.IsTotal size) :
    reader.IsSized fun _ => size :=
  ⟨h.ok, h.fails⟩

end Reader

namespace Codec

variable {α β : Type}

theorem isTotal_number {width : Nat} (hwidth : width ≤ Reader.largestRequest) :
    (number width).read.IsTotal width :=
  (Reader.isTotal_take hwidth).map BigEndian.decode

theorem isTotal_uint8 : uint8.read.IsTotal 1 := (isTotal_number (by decide)).map _

theorem isTotal_uint16 : uint16.read.IsTotal 2 := (isTotal_number (by decide)).map _

theorem isTotal_uint32 : uint32.read.IsTotal 4 := (isTotal_number (by decide)).map _

theorem isTotal_uint64 : uint64.read.IsTotal 8 := (isTotal_number (by decide)).map _

theorem isTotal_int32 : int32.read.IsTotal 4 := isTotal_uint32.map _

theorem isTotal_int64 : int64.read.IsTotal 8 := isTotal_uint64.map _

theorem isTotal_pair {first : Codec α} {second : Codec β} {size size' : Nat}
    (hfirst : first.read.IsTotal size) (hsecond : second.read.IsTotal size') :
    (first.pair second).read.IsTotal (size + size') :=
  hfirst.bind fun left => hsecond.bind fun right => Reader.isTotal_pure (left, right)

theorem isTotal_flags (scope : FlagScope) : (Flags.codec scope).read.IsTotal 2 :=
  isTotal_uint16.map _

/-- An input that is long enough begins with a value. -/
theorem WritesBack.exists_write {codec : Codec α} (h : codec.WritesBack) {size : Nat}
    (htotal : codec.read.IsTotal size) {bytes : Bytes} (henough : size ≤ bytes.length) :
    ∃ value rest, bytes = codec.write value ++ rest := by
  obtain ⟨value, after, hread, -⟩ := htotal.ok (.start bytes) henough
  obtain ⟨_, hrest, rfl⟩ := h _ _ _ hread
  exact ⟨value, after.rest, hrest⟩

/-- The size of a list whose length stands in the first two bytes. -/
def countedSize (size : Nat) (bytes : Bytes) : Nat :=
  2 + size * BigEndian.decode (bytes.take 2)

/-- An input of two bytes or more begins with a count. -/
theorem exists_count (size : Nat) {bytes : Bytes} (htwo : 2 ≤ bytes.length) :
    ∃ (count : UInt16) (later : Bytes), bytes = uint16.write count ++ later ∧
      bytes.length = 2 + later.length ∧ countedSize size bytes = 2 + count.toNat * size := by
  obtain ⟨count, later, rfl⟩ := writesBack_uint16.exists_write isTotal_uint16 htwo
  have hlength : (uint16.write count).length = 2 := hasFixedSize_uint16 count
  have hdecode : BigEndian.decode (uint16.write count) = count.toNat :=
    (BigEndian.decode_encode 2 count.toNat).trans (Nat.mod_eq_of_lt count.toNat_lt)
  refine ⟨count, later, rfl, by rw [List.length_append, hlength], ?_⟩
  rw [countedSize, List.take_left' hlength, hdecode, Nat.mul_comm]

/-- A list of values of a fixed size is as long as its first two bytes say.  No
count of these is too large for the check of the whole list. -/
theorem isSized_counted {codec : Codec α} (h : codec.read.IsTotal codec.minSize)
    (hsmall : 65535 * codec.minSize ≤ Reader.largestRequest) :
    codec.counted.read.IsSized (countedSize codec.minSize) where
  ok := by
    intro ⟨position, rest⟩ henough
    obtain ⟨count, later, rfl, hlength, hsize⟩ :=
      exists_count codec.minSize (Nat.le_trans (Nat.le_add_right 2 _) henough)
    have helements : count.toNat * codec.minSize ≤ later.length := by
      simp only [hsize, hlength] at henough
      omega
    obtain ⟨values, after, hvalues, hafter⟩ := (h.repeated count.toNat []).ok
      ⟨position + (uint16.write count).length, later⟩ helements
    have hafter : later.length = count.toNat * codec.minSize + after.rest.length := hafter
    refine ⟨values, after, ?_, by simp only [hsize, hlength]; omega⟩
    show (uint16.read >>= fun count => Reader.expect count.toNat codec.minSize >>= fun _ =>
      Reader.repeated codec.read count.toNat []) _ = _
    rw [Stateful.bind_of_ok (roundTrips_uint16.reads count trivial position later),
      Stateful.bind_of_ok (Reader.expect_of_le helements)]
    exact hvalues
  fails := by
    intro bytes hshort
    by_cases htwo : bytes.length < 2
    · exact (isTotal_uint16.fails bytes htwo).bind _
    · obtain ⟨count, later, rfl, hlength, hsize⟩ :=
        exists_count codec.minSize (Nat.le_of_not_lt htwo)
      have hneeded : later.length < count.toNat * codec.minSize := by omega
      have hcount : count.toNat * codec.minSize ≤ 65535 * codec.minSize :=
        Nat.mul_le_mul_right _ (Nat.le_of_lt_succ count.toNat_lt)
      exact (roundTrips_uint16.reads count trivial).fails
        ((Reader.fails_expect (Nat.le_trans hcount hsmall) hneeded).bind _)

theorem write_uint8 (byte : UInt8) : uint8.write byte = [byte] := by
  show [UInt8.ofNat (byte.toNat >>> 0)] = [byte]
  simp

end Codec

end ClassDelta
