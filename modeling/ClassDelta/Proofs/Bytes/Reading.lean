import ClassDelta.Bytes.Reader
import ClassDelta.Proofs.Bytes.BigEndian
import ClassDelta.Proofs.Stateful

/-!
# What readers read

Three facts describe a reader without unfolding it.

* `Reader.Demands` says all that a reader does which first asks for some bytes:
  how many it takes off and what they spell, and how it fails on less.  What else
  is known of such readers follows from it.
* `Reader.Reads` says what the reader does on the bytes of a value: it takes
  them off and returns the value, wherever they stand in the input and
  whatever follows them.
* `Reader.Returns` says what is known of a value that the reader returned,
  whatever the input was.

For the last two there is one lemma for every way of putting readers together.
The rest of the input stays free in `Reads`, so the two halves of a bind are
two facts of the same form.
-/

namespace ClassDelta

namespace Cursor

/-- The cursor behind some more bytes. -/
def skip (cursor : Cursor) (width : Nat) : Cursor :=
  ⟨cursor.position + width, cursor.rest.drop width⟩

@[simp] theorem skip_zero (cursor : Cursor) : cursor.skip 0 = cursor := rfl

theorem skip_skip (cursor : Cursor) (first second : Nat) :
    (cursor.skip first).skip second = cursor.skip (first + second) := by
  rw [skip, skip, skip, List.drop_drop, Nat.add_assoc]

theorem remaining_skip (cursor : Cursor) (width : Nat) :
    (cursor.skip width).remaining = cursor.remaining - width :=
  List.length_drop

end Cursor

namespace Reader

variable {α β : Type}

/-! ## Readers that ask first -/

/-- The reader asks for `needed` bytes.  If there are as many, it takes `width` of
them off, which spell its value.  If there are not, it says so and leaves the
cursor where it is. -/
structure Demands (reader : Reader α) (needed width : Nat) (spells : Bytes → α → Prop) : Prop where
  ok : ∀ cursor : Cursor, needed ≤ cursor.remaining → ∃ value,
    reader cursor = .ok value (cursor.skip width) ∧ spells (cursor.rest.take width) value
  error : ∀ cursor : Cursor, cursor.remaining < needed →
    reader cursor = .error (.truncated cursor.position needed cursor.remaining) cursor

theorem demands_expect (count size : Nat) :
    (expect count size).Demands (min (count * size) largestRequest) 0 fun _ _ => True where
  ok cursor henough := by
    have henough : min (count * size) largestRequest ≤ cursor.rest.length := henough
    refine ⟨(), ?_, trivial⟩
    simp only [expect, holdsAtLeast_eq, decide_eq_true_eq, if_pos henough, Cursor.skip_zero]
  error cursor hshort := by
    have hshort : ¬ min (count * size) largestRequest ≤ cursor.rest.length :=
      Nat.not_le_of_lt hshort
    simp only [expect, holdsAtLeast_eq, decide_eq_true_eq, if_neg hshort]

/-- The count has to be one that can be asked for; a larger one would be asked for
as the largest. -/
theorem demands_take {count : Nat} (hcount : count ≤ largestRequest) :
    (take count).Demands count count fun bytes value => value = bytes ∧ bytes.length = count := by
  have hexpect := demands_expect count 1
  rw [Nat.mul_one, Nat.min_eq_left hcount] at hexpect
  refine ⟨fun cursor henough => ?_, fun cursor hshort => ?_⟩
  · obtain ⟨_, hread, -⟩ := hexpect.ok cursor henough
    refine ⟨cursor.rest.take count, ?_, rfl, List.length_take_of_le henough⟩
    unfold take
    rw [Stateful.bind_of_ok hread]
    rfl
  · unfold take
    exact Stateful.bind_of_error (hexpect.error cursor hshort) _

theorem Demands.mono {reader : Reader α} {needed width : Nat} {first second : Bytes → α → Prop}
    (h : reader.Demands needed width first)
    (himp : ∀ bytes value, first bytes value → second bytes value) :
    reader.Demands needed width second where
  ok cursor henough := by
    obtain ⟨value, hread, hvalue⟩ := h.ok cursor henough
    exact ⟨value, hread, himp _ value hvalue⟩
  error := h.error

theorem Demands.map {reader : Reader α} {needed width : Nat} {first : Bytes → α → Prop}
    {second : Bytes → β → Prop} (h : reader.Demands needed width first) {f : α → β}
    (hspells : ∀ bytes value, first bytes value → second bytes (f value)) :
    (f <$> reader).Demands needed width second := by
  rw [map_eq_pure_bind]
  refine ⟨fun cursor henough => ?_, fun cursor hshort => ?_⟩
  · obtain ⟨value, hread, hvalue⟩ := h.ok cursor henough
    refine ⟨f value, ?_, hspells _ value hvalue⟩
    rw [Stateful.bind_of_ok hread]
    rfl
  · exact Stateful.bind_of_error (h.error cursor hshort) _

/-- A value is returned only if there are enough bytes. -/
theorem Demands.of_eq_ok {reader : Reader α} {needed width : Nat} {spells : Bytes → α → Prop}
    (h : reader.Demands needed width spells) {cursor after : Cursor} {value : α}
    (hread : reader cursor = .ok value after) :
    needed ≤ cursor.remaining ∧ after = cursor.skip width ∧
      spells (cursor.rest.take width) value := by
  rcases Nat.lt_or_ge cursor.remaining needed with hshort | henough
  · rw [h.error cursor hshort] at hread
    cases hread
  · obtain ⟨found, hfound, hspells⟩ := h.ok cursor henough
    rw [hfound] at hread
    cases hread
    exact ⟨henough, rfl, hspells⟩

/-! ## Reading a value's bytes -/

/-- In front of any rest the reader takes the bytes off and returns the
value. -/
def Reads (reader : Reader α) (bytes : Bytes) (value : α) : Prop :=
  ∀ (position : Nat) (rest : Bytes),
    reader ⟨position, bytes ++ rest⟩ = .ok value ⟨position + bytes.length, rest⟩

theorem reads_pure (value : α) : Reads (pure value) [] value := by
  intro position rest
  rfl

/-- The second reader reads what the first one leaves. -/
theorem Reads.bind {reader : Reader α} {next : α → Reader β} {front back : Bytes}
    {value : α} {result : β} (hfront : reader.Reads front value)
    (hback : (next value).Reads back result) :
    (reader >>= next).Reads (front ++ back) result := by
  intro position rest
  have hfirst := hfront position (back ++ rest)
  have hsecond := hback (position + front.length) rest
  rw [List.append_assoc, Stateful.bind_of_ok hfirst, List.length_append, ← Nat.add_assoc]
  exact hsecond

theorem Reads.map {reader : Reader α} {bytes : Bytes} {value : α} (f : α → β)
    (h : reader.Reads bytes value) : (f <$> reader).Reads bytes (f value) := by
  intro position rest
  show EStateM.map f reader _ = _
  unfold EStateM.map
  rw [h position rest]

/-- What follows the last read of a value takes no bytes. -/
theorem Reads.bind_nil {reader : Reader α} {next : α → Reader β} {bytes : Bytes} {value : α}
    {result : β} (hreader : reader.Reads bytes value) (hnext : (next value).Reads [] result) :
    (reader >>= next).Reads bytes result := by
  have hboth := hreader.bind hnext
  rw [List.append_nil] at hboth
  exact hboth

theorem Reads.mapError {reader : Reader α} {bytes : Bytes} {value : α}
    (reword : ParseError → ParseError) (h : reader.Reads bytes value) :
    (reader.mapError reword).Reads bytes value := by
  intro position rest
  unfold Reader.mapError
  rw [h position rest]

/-- A check for bytes that do follow changes nothing. -/
theorem Reads.expect_bind {next : Unit → Reader β} {count size : Nat} {bytes : Bytes}
    {result : β} (henough : count * size ≤ bytes.length) (h : (next ()).Reads bytes result) :
    (expect count size >>= next).Reads bytes result := by
  intro position rest
  have hneeded : min (count * size) largestRequest ≤ (bytes ++ rest).length := by
    rw [List.length_append]
    omega
  obtain ⟨_, hexpect, -⟩ := (demands_expect count size).ok ⟨position, bytes ++ rest⟩ hneeded
  rw [Stateful.bind_of_ok hexpect, Cursor.skip_zero]
  exact h position rest

theorem reads_take (bytes : Bytes) : (take bytes.length).Reads bytes bytes := by
  unfold take
  refine Reads.expect_bind (by omega) ?_
  intro position rest
  show EStateM.Result.ok _ _ = _
  simp

theorem reads_number (width value : Nat) (hvalue : value < 256 ^ width) :
    (number width).Reads (BigEndian.encode width value) value := by
  have htake := reads_take (BigEndian.encode width value)
  rw [BigEndian.length_encode] at htake
  have hdecode := htake.map BigEndian.decode
  rw [BigEndian.decode_encode, Nat.mod_eq_of_lt hvalue] at hdecode
  exact hdecode

/-- Values that read back one by one read back in a row.  The induction is on
the values still to be read; those already read stand in `before`. -/
theorem reads_repeated {reader : Reader α} {write : α → Bytes} (values before : List α)
    (h : ∀ value ∈ values, reader.Reads (write value) value) :
    (repeated reader values.length before).Reads (values.flatMap write)
      (before.reverse ++ values) := by
  induction values generalizing before with
  | nil =>
    rw [List.append_nil]
    exact reads_pure before.reverse
  | cons value values ih =>
    rw [List.length_cons, List.flatMap_cons, repeated]
    refine (h value (by simp)).bind ?_
    have hlater := ih (value :: before) fun later hmem => h later (by simp [hmem])
    rw [List.reverse_cons, List.append_assoc] at hlater
    exact hlater

theorem run_eq_ok_iff {reader : Reader α} {bytes : Bytes} {value : α} :
    reader.run bytes = .ok value ↔ ∃ after, reader (Cursor.start bytes) = .ok value after := by
  unfold Reader.run
  cases reader (Cursor.start bytes) <;> simp

/-! ## What is known of a value that was read -/

/-- Every value that the reader returns has the property. -/
def Returns (reader : Reader α) (property : α → Prop) : Prop :=
  ∀ cursor value after, reader cursor = .ok value after → property value

theorem Returns.mono {reader : Reader α} {first second : α → Prop} (h : reader.Returns first)
    (himp : ∀ value, first value → second value) : reader.Returns second :=
  fun cursor value after hread => himp value (h cursor value after hread)

theorem returns_pure {property : α → Prop} {value : α} (h : property value) :
    Returns (pure value) property := by
  intro cursor result after hread
  cases hread
  exact h

theorem returns_throw {property : α → Prop} (error : ParseError) :
    Returns (throw error) property := by
  intro cursor value after hread
  cases hread

/-- Rewording errors changes nothing about a success. -/
theorem mapError_eq_ok {reader : Reader α} {reword : ParseError → ParseError}
    {cursor after : Cursor} {result : α}
    (h : reader.mapError reword cursor = .ok result after) : reader cursor = .ok result after := by
  unfold Reader.mapError at h
  split at h
  · rename_i hread
    cases h
    exact hread
  · cases h

theorem Returns.bind {reader : Reader α} {next : α → Reader β} {first : α → Prop}
    {second : β → Prop} (hfirst : reader.Returns first)
    (hsecond : ∀ value, first value → (next value).Returns second) :
    (reader >>= next).Returns second := by
  intro cursor result after hread
  obtain ⟨value, between, hvalue, hresult⟩ := Stateful.bind_eq_ok hread
  exact hsecond value (hfirst cursor value between hvalue) between result after hresult

theorem Returns.map {reader : Reader α} {first : α → Prop} {second : β → Prop} {f : α → β}
    (hreader : reader.Returns first) (h : ∀ value, first value → second (f value)) :
    (f <$> reader).Returns second := by
  intro cursor result after hread
  change EStateM.map f reader cursor = _ at hread
  unfold EStateM.map at hread
  split at hread
  · rename_i value between hvalue
    cases hread
    exact h value (hreader cursor value _ hvalue)
  · cases hread

theorem Returns.mapError {reader : Reader α} {property : α → Prop}
    {reword : ParseError → ParseError} (h : reader.Returns property) :
    (reader.mapError reword).Returns property := by
  intro cursor result after hread
  exact h cursor result after (mapError_eq_ok hread)

/-- Nothing is known of the result of a check. -/
theorem returns_any (reader : Reader α) : reader.Returns fun _ => True :=
  fun _ _ _ _ => trivial

/-- Whatever length a file states in up to 32 bits can be asked for. -/
theorem le_largestRequest {count : Nat} (h : count < 2 ^ 32) : count ≤ largestRequest := by
  have : largestRequest = 2 ^ 64 - 1 := rfl
  omega

/-- As many bytes are returned as were asked for.  No input can hold more than
the largest request, which is why the count has to stay below it. -/
theorem returns_take {count : Nat} (hcount : count ≤ largestRequest) :
    (take count).Returns fun bytes => bytes.length = count := by
  intro cursor bytes after hread
  obtain ⟨-, -, rfl, hlength⟩ := (demands_take hcount).of_eq_ok hread
  exact hlength

theorem returns_number {width : Nat} (hwidth : width ≤ largestRequest) :
    (number width).Returns fun value => value < 256 ^ width :=
  (returns_take hwidth).map fun bytes hlength => hlength ▸ BigEndian.decode_lt bytes

/-- Values read in a row are as many as were asked for, and each one is known
to be what the reader returns. -/
theorem returns_repeated {reader : Reader α} {property : α → Prop}
    (hreader : reader.Returns property) (count : Nat) (before : List α)
    (hbefore : ∀ value ∈ before, property value) :
    (repeated reader count before).Returns fun values =>
      values.length = before.length + count ∧ ∀ value ∈ values, property value := by
  induction count generalizing before with
  | zero =>
    refine returns_pure ⟨by simp, fun value hmem => hbefore value ?_⟩
    exact List.mem_reverse.1 hmem
  | succ count ih =>
    rw [repeated]
    refine hreader.bind fun value hvalue => ?_
    have hseen : ∀ earlier ∈ value :: before, property earlier := by
      intro earlier hmem
      rcases List.mem_cons.1 hmem with rfl | hmem
      · exact hvalue
      · exact hbefore earlier hmem
    refine (ih (value :: before) hseen).mono fun values hvalues => ?_
    rw [List.length_cons] at hvalues
    exact ⟨by omega, hvalues.2⟩

end Reader

end ClassDelta
