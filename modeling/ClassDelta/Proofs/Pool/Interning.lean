import ClassDelta.Proofs.Pool.Building

/-!
# What interning remembers

Interning an entry does one of three things: the entry is known and nothing
happens, or it is new and added, or it is new and there is no room for it
(`intern_of_known`, `intern_of_room`, `intern_of_full`).  A call is made of a
few of these, and all that it does to a builder is `PoolBuilder.Adds`: new
entries stand behind the old ones, each of them was unknown and is known now,
and nothing is forgotten.

* `PoolRequest.interns_perform` says what a call to intern does, with room and
  without.
* `PoolBuilder.remembers_after` carries what is known through a history.
* `PoolBuilder.interningLaws_after` puts together what a caller may rely on.
-/

namespace ClassDelta

/-! ## One entry -/

namespace PoolBuilder

variable {builder later last : PoolBuilder} {constant : Constant} {index : PoolIndex}

theorem intern_of_known (h : builder.interned.lookup constant = some index) :
    intern constant builder = .ok index builder := by
  rw [intern, Stateful.get_bind]
  simp only [h]
  rfl

theorem intern_of_room (hnew : builder.interned.lookup constant = none)
    (hroom : builder.pool.slotCount.toNat + constant.slots ≤ 65535) :
    intern constant builder = .ok builder.pool.slotCount
      ⟨builder.pool.push constant, (constant, builder.pool.slotCount) :: builder.interned⟩ := by
  rw [intern, Stateful.get_bind]
  simp only [hnew, Stateful.bind_of_ok (push_of_room hroom)]
  rfl

theorem intern_of_full (hnew : builder.interned.lookup constant = none)
    (hfull : ¬ builder.pool.slotCount.toNat + constant.slots ≤ 65535) :
    intern constant builder = .error ⟨builder.pool.slotCount.toNat, constant⟩ builder := by
  rw [intern, Stateful.get_bind]
  simp only [hnew, Stateful.bind_of_error (push_of_full hfull)]

/-! ## Adding entries -/

/-- What the builder knows, the later one knows as well. -/
def Remembers (builder later : PoolBuilder) : Prop :=
  ∀ constant index, builder.interned.lookup constant = some index →
    later.interned.lookup constant = some index

theorem Remembers.refl (builder : PoolBuilder) : builder.Remembers builder := fun _ _ h => h

theorem Remembers.trans (h : builder.Remembers later) (h' : later.Remembers last) :
    builder.Remembers last :=
  fun constant index hknown => h' constant index (h constant index hknown)

/-- What is unknown later was unknown before. -/
theorem Remembers.lookup_eq_none (h : builder.Remembers later)
    (hunknown : later.interned.lookup constant = none) :
    builder.interned.lookup constant = none := by
  cases hlookup : builder.interned.lookup constant with
  | none => rfl
  | some index =>
    have hknown := h constant index hlookup
    rw [hunknown] at hknown
    cases hknown

/-- The later builder has the new entries behind the old ones.  None of them was
known, and each is known at its index now. -/
structure Adds (builder : PoolBuilder) (new : List (PoolIndex × Constant))
    (later : PoolBuilder) : Prop where
  toList : later.pool.toList = builder.pool.toList ++ new
  remembers : builder.Remembers later
  unknown : ∀ entry ∈ new, builder.interned.lookup entry.2 = none
  known : ∀ entry ∈ new, later.interned.lookup entry.2 = some entry.1
  distinct : (new.map Prod.snd).Nodup

theorem Adds.refl (builder : PoolBuilder) : builder.Adds [] builder where
  toList := (List.append_nil _).symm
  remembers := .refl builder
  unknown := List.forall_mem_nil _
  known := List.forall_mem_nil _
  distinct := List.nodup_nil

/-- What was added first is known when the rest is added, so that nothing is
added twice. -/
theorem Adds.trans {front back : List (PoolIndex × Constant)} (h : builder.Adds front later)
    (h' : later.Adds back last) : builder.Adds (front ++ back) last where
  toList := by rw [h'.toList, h.toList, List.append_assoc]
  remembers := h.remembers.trans h'.remembers
  unknown := by
    intro entry hmem
    rcases List.mem_append.1 hmem with hfront | hback
    · exact h.unknown entry hfront
    · exact h.remembers.lookup_eq_none (h'.unknown entry hback)
  known := by
    intro entry hmem
    rcases List.mem_append.1 hmem with hfront | hback
    · exact h'.remembers _ _ (h.known entry hfront)
    · exact h'.known entry hback
  distinct := by
    rw [List.map_append, List.nodup_append]
    refine ⟨h.distinct, h'.distinct, ?_⟩
    rintro constant hfront other hback rfl
    obtain ⟨entry, hentry, rfl⟩ := List.mem_map.1 hfront
    obtain ⟨again, hagain, hsame⟩ := List.mem_map.1 hback
    have hknown := h.known entry hentry
    rw [← hsame, h'.unknown again hagain] at hknown
    cases hknown

/-- Adding an unknown entry makes it known. -/
theorem adds_push (hnew : builder.interned.lookup constant = none) :
    builder.Adds [(builder.pool.slotCount, constant)]
      ⟨builder.pool.push constant, (constant, builder.pool.slotCount) :: builder.interned⟩ where
  toList := Pool.toList_push
  remembers := by
    intro other index hknown
    have hother : other ≠ constant := by
      rintro rfl
      rw [hnew] at hknown
      cases hknown
    rw [List.lookup_cons, beq_false_of_ne hother]
    exact hknown
  unknown := List.forall_mem_singleton.2 hnew
  known := List.forall_mem_singleton.2 List.lookup_cons_self
  distinct := List.pairwise_singleton _ constant

/-- An entry that was interned is known, and it is the only one that may be new.
Without room for it nothing changes. -/
theorem intern_cases (constant : Constant) (builder : PoolBuilder) :
    (∃ index later new, intern constant builder = .ok index later ∧ builder.Adds new later ∧
      (∀ entry ∈ new, entry.2 = constant) ∧ later.interned.lookup constant = some index) ∨
    ∃ overflow, intern constant builder = .error overflow builder := by
  cases hlookup : builder.interned.lookup constant with
  | some index =>
    exact .inl ⟨index, builder, [], intern_of_known hlookup, .refl builder,
      List.forall_mem_nil _, hlookup⟩
  | none =>
    by_cases hroom : builder.pool.slotCount.toNat + constant.slots ≤ 65535
    · have hadds := adds_push hlookup
      have hknown := hadds.known _ List.mem_cons_self
      exact .inl ⟨_, _, _, intern_of_room hlookup hroom, hadds,
        List.forall_mem_singleton.2 rfl, hknown⟩
    · exact .inr ⟨_, intern_of_full hlookup hroom⟩

end PoolBuilder

/-! ## One call -/

namespace PoolRequest

open PoolBuilder

variable {builder later : PoolBuilder} {index : PoolIndex}

/-- The texts that a call interns before it comes to its own entry. -/
def texts : PoolRequest → List String
  | className name => [name]
  | string value => [value]
  | nameAndType name descriptor => [name, descriptor]
  | text _ | integer _ | long _ | push _ => []

/-- The builder knows every entry that the call interns, the last one at the
index. -/
def Recalled (builder : PoolBuilder) : PoolRequest → PoolIndex → Prop
  | text value, index => builder.interned.lookup (.utf8 value) = some index
  | className name, index => ∃ text, builder.interned.lookup (.utf8 name) = some text ∧
      builder.interned.lookup (.named .className text) = some index
  | string value, index => ∃ text, builder.interned.lookup (.utf8 value) = some text ∧
      builder.interned.lookup (.named .string text) = some index
  | nameAndType name descriptor, index => ∃ first second,
      builder.interned.lookup (.utf8 name) = some first ∧
        builder.interned.lookup (.utf8 descriptor) = some second ∧
        builder.interned.lookup (.nameAndType first second) = some index
  | integer value, index => builder.interned.lookup (.integer value) = some index
  | long value, index => builder.interned.lookup (.long value) = some index
  | push _, _ => False

theorem Recalled.mono {request : PoolRequest} (hremembers : builder.Remembers later)
    (h : request.Recalled builder index) : request.Recalled later index := by
  cases request with
  | text value | integer value | long value => exact hremembers _ _ h
  | className value | string value =>
    obtain ⟨text, htext, hnamed⟩ := h
    exact ⟨text, hremembers _ _ htext, hremembers _ _ hnamed⟩
  | nameAndType name descriptor =>
    obtain ⟨first, second, hfirst, hsecond, hboth⟩ := h
    exact ⟨first, second, hremembers _ _ hfirst, hremembers _ _ hsecond, hremembers _ _ hboth⟩
  | push constant => exact h.elim

/-- A call whose entries are all known answers from memory. -/
theorem Recalled.perform_eq {request : PoolRequest} (h : request.Recalled builder index) :
    request.perform builder = .ok index builder := by
  cases request with
  | text value | integer value | long value => exact intern_of_known h
  | className value | string value =>
    obtain ⟨text, htext, hnamed⟩ := h
    exact (Stateful.bind_of_ok (intern_of_known htext) _).trans (intern_of_known hnamed)
  | nameAndType name descriptor =>
    obtain ⟨first, second, hfirst, hsecond, hboth⟩ := h
    refine (Stateful.bind_of_ok (intern_of_known hfirst) _).trans ?_
    exact (Stateful.bind_of_ok (intern_of_known hsecond) _).trans (intern_of_known hboth)
  | push constant => exact h.elim

/-- All entries are texts, and texts from the list. -/
def AreTextsOf (texts : List String) (new : List (PoolIndex × Constant)) : Prop :=
  ∀ entry ∈ new, ∃ text ∈ texts, entry.2 = .utf8 text

/-- The step makes entries known.  Where it finds no room, it has added nothing
but some of the texts. -/
def Interns (texts : List String) (step : Building PoolIndex)
    (recalled : PoolBuilder → PoolIndex → Prop) (builder : PoolBuilder) : Prop :=
  (∃ index later new, step builder = .ok index later ∧ builder.Adds new later ∧
      recalled later index) ∨
    ∃ overflow later new, step builder = .error overflow later ∧ builder.Adds new later ∧
      AreTextsOf texts new

/-- Behind an interned text the step goes on; the text may stay behind alone. -/
theorem interns_text_bind {texts : List String} (value : String)
    {next : PoolIndex → Building PoolIndex} {recalled : PoolBuilder → PoolIndex → Prop}
    (builder : PoolBuilder)
    (h : ∀ text later, builder.Remembers later → later.interned.lookup (.utf8 value) = some text →
      Interns texts (next text) recalled later) :
    Interns (value :: texts) (PoolBuilder.text value >>= next) recalled builder := by
  rcases intern_cases (.utf8 value) builder with
    ⟨text, between, front, hstep, hfront, honly, hknown⟩ | ⟨overflow, hstep⟩
  · have hnext := Stateful.bind_of_ok hstep next
    rcases h text between hfront.remembers hknown with
      ⟨index, later, back, hlast, hback, hrecalled⟩ | ⟨overflow, later, back, hlast, hback, htexts⟩
    · exact .inl ⟨index, later, front ++ back, hnext.trans hlast, hfront.trans hback, hrecalled⟩
    · refine .inr ⟨overflow, later, front ++ back, hnext.trans hlast, hfront.trans hback, ?_⟩
      intro entry hmem
      rcases List.mem_append.1 hmem with hmem | hmem
      · exact ⟨value, List.mem_cons_self, honly entry hmem⟩
      · obtain ⟨text, htext, heq⟩ := htexts entry hmem
        exact ⟨text, List.mem_cons_of_mem _ htext, heq⟩
  · exact .inr ⟨overflow, builder, [], Stateful.bind_of_error hstep next, .refl builder,
      List.forall_mem_nil _⟩

/-- The entry itself comes last, and without room for it nothing is added. -/
theorem interns_entry {recalled : PoolBuilder → PoolIndex → Prop} (constant : Constant)
    (builder : PoolBuilder)
    (h : ∀ index later, builder.Remembers later →
      later.interned.lookup constant = some index → recalled later index) :
    Interns [] (intern constant) recalled builder := by
  rcases intern_cases constant builder with
    ⟨index, later, new, hstep, hadds, -, hknown⟩ | ⟨overflow, hstep⟩
  · exact .inl ⟨index, later, new, hstep, hadds, h index later hadds.remembers hknown⟩
  · exact .inr ⟨overflow, builder, [], hstep, .refl builder, List.forall_mem_nil _⟩

/-- Every call to intern makes its entries known, or leaves nothing behind but
texts that it needed. -/
theorem interns_perform {request : PoolRequest} (h : request.IsIntern) (builder : PoolBuilder) :
    Interns request.texts request.perform request.Recalled builder := by
  cases request with
  | text value | integer value | long value =>
    exact interns_entry _ builder fun index later _ hknown => hknown
  | className value | string value =>
    refine interns_text_bind value builder fun text between _ htext => ?_
    refine interns_entry _ between fun index later hremembers hnamed => ?_
    exact ⟨text, hremembers _ _ htext, hnamed⟩
  | nameAndType name descriptor =>
    refine interns_text_bind name builder fun first between _ hfirst => ?_
    refine interns_text_bind descriptor between fun second between' hremembers hsecond => ?_
    refine interns_entry _ between' fun index later hremembers' hboth => ?_
    exact ⟨first, second, hremembers' _ _ (hremembers _ _ hfirst), hremembers' _ _ hsecond, hboth⟩
  | push constant => exact h.elim

/-! ## What indices mean -/

/-- Following the index gives what was asked for. -/
def Resolves (pool : Pool) : PoolRequest → PoolIndex → Prop
  | text value, index => pool.text index = .ok value
  | className name, index => pool.className index = .ok name
  | string value, index => ∃ text, pool.get? index = some (.named .string text) ∧
      pool.text text = .ok value
  | nameAndType name descriptor, index => pool.nameAndType index = .ok (name, descriptor)
  | integer value, index => pool.get? index = some (.integer value)
  | long value, index => pool.get? index = some (.long value)
  | push constant, index => pool.get? index = some constant

theorem Means.resolves {pool : Pool} {request : PoolRequest} (h : request.Means pool index) :
    request.Resolves pool index := by
  cases request with
  | text value => exact Pool.text_of_get? h
  | className name =>
    obtain ⟨text, hindex, htext⟩ := h
    simp only [Resolves, Pool.className, hindex, Pool.text_of_get? htext]
  | string value =>
    obtain ⟨text, hindex, htext⟩ := h
    exact ⟨text, hindex, Pool.text_of_get? htext⟩
  | nameAndType name descriptor =>
    obtain ⟨first, second, hindex, hfirst, hsecond⟩ := h
    simp only [Resolves, Pool.nameAndType, hindex, Pool.text_of_get? hfirst,
      Pool.text_of_get? hsecond]
    rfl
  | integer value | long value => exact h
  | push constant => exact h

/-- The call to intern that an index may be the answer to. -/
def asked? (pool : Pool) (index : PoolIndex) : Option PoolRequest :=
  match pool.get? index with
  | some (.utf8 value) => some (text value)
  | some (.integer value) => some (integer value)
  | some (.long value) => some (long value)
  | some (.named .className name) => (pool.text name).toOption.map className
  | some (.named .string value) => (pool.text value).toOption.map string
  | some (.nameAndType first second) => do
    return nameAndType (← (pool.text first).toOption) (← (pool.text second).toOption)
  | _ => none

/-- The entry at an index tells the call, and the texts behind it tell what was
asked for. -/
theorem Means.asked?_eq {pool : Pool} {request : PoolRequest} (hintern : request.IsIntern)
    (h : request.Means pool index) : asked? pool index = some request := by
  cases request with
  | text value =>
    have hindex : pool.get? index = some (.utf8 value) := h
    simp only [asked?, hindex]
  | integer value =>
    have hindex : pool.get? index = some (.integer value) := h
    simp only [asked?, hindex]
  | long value =>
    have hindex : pool.get? index = some (.long value) := h
    simp only [asked?, hindex]
  | className value | string value =>
    obtain ⟨text, hindex, htext⟩ := h
    simp only [asked?, hindex, Pool.text_of_get? htext]
    rfl
  | nameAndType name descriptor =>
    obtain ⟨first, second, hindex, hfirst, hsecond⟩ := h
    simp only [asked?, hindex, Pool.text_of_get? hfirst, Pool.text_of_get? hsecond]
    rfl
  | push constant => exact hintern.elim

end PoolRequest

/-! ## Histories -/

namespace PoolBuilder

variable {builder later : PoolBuilder} {request : PoolRequest}

theorem next_of_ok {index : PoolIndex} (h : request.perform builder = .ok index later) :
    builder.next request = later := by
  rw [next, h]

theorem next_of_error {overflow : PoolOverflow}
    (h : request.perform builder = .error overflow later) : builder.next request = later := by
  rw [next, h]

theorem next_push_of_room {constant : Constant}
    (hroom : builder.pool.slotCount.toNat + constant.slots ≤ 65535) :
    builder.next (.push constant) = { builder with pool := builder.pool.push constant } := by
  have hresult : (PoolRequest.push constant).perform builder = _ := push_of_room hroom
  rw [next_of_ok hresult]

theorem next_push_of_full {constant : Constant}
    (hfull : ¬ builder.pool.slotCount.toNat + constant.slots ≤ 65535) :
    builder.next (.push constant) = builder := by
  have hresult : (PoolRequest.push constant).perform builder = _ := push_of_full hfull
  rw [next_of_error hresult]

/-- Pushing leaves what is known alone. -/
theorem interned_next_push (builder : PoolBuilder) (constant : Constant) :
    (builder.next (.push constant)).interned = builder.interned := by
  by_cases hroom : builder.pool.slotCount.toNat + constant.slots ≤ 65535
  · rw [next_push_of_room hroom]
  · rw [next_push_of_full hroom]

/-- Where there is room for all of them, entries that are pushed stand behind
the others, and nothing else changes. -/
theorem foldl_next_push (constants : List Constant)
    (hroom : builder.pool.entries.next + OffsetVector.totalWidth constants ≤ 65535) :
    (constants.map PoolRequest.push).foldl next builder =
      { builder with pool := ⟨constants.foldl OffsetVector.push builder.pool.entries⟩ } := by
  induction constants generalizing builder with
  | nil => rfl
  | cons constant constants ih =>
    have hwidth : Width.width constant = constant.slots := rfl
    rw [OffsetVector.totalWidth_cons, hwidth, ← Nat.add_assoc] at hroom
    have hcount : builder.pool.slotCount.toNat = builder.pool.entries.next :=
      Pool.toNat_slotCount_of_le (by omega)
    have hfits : builder.pool.slotCount.toNat + constant.slots ≤ 65535 := by omega
    rw [List.map_cons, List.foldl_cons, List.foldl_cons, next_push_of_room hfits]
    exact ih hroom

theorem remembers_next (builder : PoolBuilder) (request : PoolRequest) :
    builder.Remembers (builder.next request) := by
  by_cases hintern : request.IsIntern
  · rcases PoolRequest.interns_perform hintern builder with
      ⟨index, later, new, hresult, hadds, -⟩ | ⟨overflow, later, new, hresult, hadds, -⟩
    · rw [next_of_ok hresult]
      exact hadds.remembers
    · rw [next_of_error hresult]
      exact hadds.remembers
  · cases request with
    | push constant =>
      intro other index hknown
      rw [interned_next_push]
      exact hknown
    | _ => exact (hintern trivial).elim

theorem remembers_foldl (builder : PoolBuilder) (history : List PoolRequest) :
    builder.Remembers (history.foldl next builder) := by
  induction history generalizing builder with
  | nil => exact .refl builder
  | cons request later ih => exact (remembers_next builder request).trans (ih _)

/-- What is known is not forgotten as the history goes on. -/
theorem remembers_after (history later : List PoolRequest) :
    (after history).Remembers (after (history ++ later)) := by
  rw [after_append]
  exact remembers_foldl (after history) later

/-- A call that was answered is known from then on. -/
theorem recalled_of_answered {history : List PoolRequest} {request : PoolRequest}
    {index : PoolIndex} (hintern : request.IsIntern)
    (h : PoolRequest.Answered history request index) : request.Recalled (after history) index := by
  obtain ⟨earlier, later, builder, rfl, hresult⟩ := h
  have hnext : after (earlier ++ [request]) = builder := by
    rw [after_append]
    exact next_of_ok hresult
  have hremembers := remembers_after (earlier ++ [request]) later
  rw [hnext, List.append_assoc, List.singleton_append] at hremembers
  rcases PoolRequest.interns_perform hintern (after earlier) with
    ⟨index', later', new, hresult', -, hrecalled⟩ | ⟨overflow, later', new, hresult', -⟩
  · rw [hresult] at hresult'
    cases hresult'
    exact hrecalled.mono hremembers
  · rw [hresult] at hresult'
    cases hresult'

/-- What a caller may rely on after a history of calls. -/
structure InterningLaws (history : List PoolRequest) : Prop where
  /-- An index leads to what it was the answer to. -/
  resolves : ∀ request index, PoolRequest.Answered history request index →
    request.Resolves (after history).pool index
  /-- Who asks again gets the same index, and nothing changes. -/
  repeats : ∀ (request : PoolRequest) (index : PoolIndex), request.IsIntern →
    PoolRequest.Answered history request index →
    request.perform (after history) = .ok index (after history)
  /-- Different calls to intern never have the same answer. -/
  distinct : ∀ (request other : PoolRequest) (index : PoolIndex), request.IsIntern →
    other.IsIntern → PoolRequest.Answered history request index →
    PoolRequest.Answered history other index → request = other
  /-- The slot count of the pool is the index of the next entry, although it has
  16 bits only. -/
  next_eq : (after history).pool.entries.next = (after history).pool.slotCount.toNat
  /-- An entry can be added exactly if there is room for it. -/
  push_iff : ∀ constant, (∃ index later, push constant (after history) = .ok index later) ↔
    (after history).pool.slotCount.toNat + constant.slots ≤ 65535
  /-- An entry without room changes nothing. -/
  push_full : ∀ constant overflow later, push constant (after history) = .error overflow later →
    later = after history ∧ overflow = ⟨(after history).pool.slotCount.toNat, constant⟩
  /-- A call to intern that finds no room leaves all entries as they are, and
  adds nothing but texts that it needed and that were not interned before. -/
  refused : ∀ (request : PoolRequest) (overflow : PoolOverflow) (later : PoolBuilder),
    request.IsIntern → request.perform (after history) = .error overflow later →
    ∃ new, later.pool.toList = (after history).pool.toList ++ new ∧
      (after history).pool.Extends later.pool ∧ (new.map Prod.snd).Nodup ∧
      ∀ entry ∈ new, ∃ text ∈ request.texts, entry.2 = .utf8 text ∧
        (after history).interned.lookup (.utf8 text) = none

/-- The laws hold after any history, whichever calls found room in it. -/
theorem interningLaws_after (history : List PoolRequest) : InterningLaws history where
  resolves := fun request index hanswered => hanswered.means.resolves
  repeats := fun request index hintern hanswered =>
    (recalled_of_answered hintern hanswered).perform_eq
  distinct := by
    intro request other index hintern hother hanswered hanswered'
    have hasked := hanswered.means.asked?_eq hintern
    rw [hanswered'.means.asked?_eq hother] at hasked
    exact (Option.some.inj hasked).symm
  next_eq := (isSound_after history).indexed.toNat_slotCount.symm
  push_iff := by
    intro constant
    constructor
    · rintro ⟨index, later, hresult⟩
      refine Decidable.byContradiction fun hfull => ?_
      rw [push_of_full hfull] at hresult
      cases hresult
    · intro hroom
      exact ⟨_, _, push_of_room hroom⟩
  push_full := by
    intro constant overflow later hresult
    by_cases hroom : (after history).pool.slotCount.toNat + constant.slots ≤ 65535
    · rw [push_of_room hroom] at hresult
      cases hresult
    · rw [push_of_full hroom] at hresult
      cases hresult
      exact ⟨rfl, rfl⟩
  refused := by
    intro request overflow later hintern hresult
    have hgrows := (isSound_after history).grows_next (fun _ _ _ _ _ => trivial) request
      fun _ _ _ => trivial
    rw [next_of_error hresult] at hgrows
    rcases PoolRequest.interns_perform hintern (after history) with
      ⟨index, later', new, hresult', -⟩ | ⟨overflow', later', new, hresult', hadds, htexts⟩
    · rw [hresult] at hresult'
      cases hresult'
    · rw [hresult] at hresult'
      cases hresult'
      refine ⟨new, hadds.toList, hgrows.keeps, hadds.distinct, fun entry hmem => ?_⟩
      obtain ⟨text, htext, heq⟩ := htexts entry hmem
      exact ⟨text, htext, heq, heq ▸ hadds.unknown entry hmem⟩

/-- As many longs as one likes, each pushed. -/
def longs (count : Nat) : List PoolRequest := (List.replicate count (.long 0)).map PoolRequest.push

/-- Longs that fit take up two slots each, and none of them is remembered. -/
theorem foldl_next_longs {count : Nat}
    (hroom : builder.pool.entries.next + count * 2 ≤ 65535) :
    ((longs count).foldl next builder).pool.entries.next =
        builder.pool.entries.next + count * 2 ∧
      ((longs count).foldl next builder).interned = builder.interned := by
  have hwidth : OffsetVector.totalWidth (List.replicate count (Constant.long 0)) = count * 2 :=
    OffsetVector.totalWidth_replicate count (Constant.long 0)
  rw [← hwidth] at hroom ⊢
  rw [longs, foldl_next_push _ hroom]
  exact ⟨OffsetVector.next_foldl_push builder.pool.entries _, rfl⟩

theorem next_after_longs {count : Nat} (hroom : 1 + count * 2 ≤ 65535) :
    (after (longs count)).pool.entries.next = 1 + count * 2 := by
  have hspace : fresh.pool.entries.next + count * 2 ≤ 65535 := hroom
  exact (foldl_next_longs hspace).1

/-- A class and a long are interned, the name of the class is added once more, and
longs fill the pool up to the last slot. -/
def crowded : List PoolRequest :=
  [.className "A", .long 7, .push (.utf8 "A")] ++ longs 32764

theorem next_crowded : (after crowded).pool.entries.next = 65534 ∧
    (after crowded).interned = [(.long 7, 3), (.named .className 1, 2), (.utf8 "A", 1)] := by
  have hfront : (after [.className "A", .long 7, .push (.utf8 "A")]).pool.entries.next = 6 ∧
      (after [.className "A", .long 7, .push (.utf8 "A")]).interned =
        [(.long 7, 3), (.named .className 1, 2), (.utf8 "A", 1)] := by decide
  have hroom : (after [.className "A", .long 7, .push (.utf8 "A")]).pool.entries.next +
      32764 * 2 ≤ 65535 := by
    rw [hfront.1]
    decide
  obtain ⟨hnext, hinterned⟩ := foldl_next_longs hroom
  rw [crowded, after_append]
  exact ⟨hnext.trans (by rw [hfront.1]), hinterned.trans hfront.2⟩

/-- In the last slot there is room for a descriptor that is new, but not for the
entry that needs it. -/
theorem nameAndType_of_lastSlot {name descriptor : String} {first : PoolIndex}
    (hnext : builder.pool.entries.next = 65534)
    (hname : builder.interned.lookup (.utf8 name) = some first)
    (hdescriptor : builder.interned.lookup (.utf8 descriptor) = none)
    (hboth : builder.interned.lookup (.nameAndType first 65534) = none) :
    ∃ later, (PoolRequest.nameAndType name descriptor).perform builder =
      .error ⟨65535, .nameAndType first 65534⟩ later := by
  let between : PoolBuilder :=
    ⟨builder.pool.push (.utf8 descriptor), (.utf8 descriptor, 65534) :: builder.interned⟩
  have htext : PoolBuilder.text descriptor builder = .ok 65534 between := by
    have hslot : builder.pool.slotCount = 65534 := by
      rw [Pool.slotCount, hnext]
      rfl
    have hroom : builder.pool.slotCount.toNat + (Constant.utf8 descriptor).slots ≤ 65535 := by
      rw [hslot]
      show 65534 + 1 ≤ 65535
      decide
    have hresult := intern_of_room hdescriptor hroom
    rw [hslot] at hresult
    exact hresult
  have hlast : between.pool.slotCount = 65535 := by
    show UInt16.ofNat (builder.pool.entries.next + 1) = 65535
    rw [hnext]
    rfl
  have hentry : intern (.nameAndType first 65534) between =
      .error ⟨between.pool.slotCount.toNat, .nameAndType first 65534⟩ between := by
    refine intern_of_full hboth ?_
    rw [hlast]
    show ¬ 65535 + 1 ≤ 65535
    decide
  rw [hlast] at hentry
  refine ⟨between, (Stateful.bind_of_ok (intern_of_known hname) _).trans ?_⟩
  exact (Stateful.bind_of_ok htext _).trans hentry

/-- In a crowded pool the class is found again, an entry of two slots has no
room, and a name with a descriptor leaves behind only the descriptor. -/
theorem interningLaws_after_crowded :
    (PoolRequest.className "A").Resolves (after crowded).pool 2 ∧
      (PoolRequest.className "A").perform (after crowded) = .ok 2 (after crowded) ∧
      (¬ ∃ index later, push (.long 1) (after crowded) = .ok index later) ∧
      ∃ overflow later new,
        (PoolRequest.nameAndType "A" "I").perform (after crowded) = .error overflow later ∧
          later.pool.toList = (after crowded).pool.toList ++ new ∧
          ∀ entry ∈ new, entry.2 = .utf8 "I" := by
  obtain ⟨hnext, hinterned⟩ := next_crowded
  have hlaws := interningLaws_after crowded
  have hanswered : PoolRequest.Answered crowded (.className "A") 2 :=
    ⟨[], _, _, rfl, rfl⟩
  obtain ⟨later, hresult⟩ : ∃ later, (PoolRequest.nameAndType "A" "I").perform (after crowded) =
      .error ⟨65535, .nameAndType 1 65534⟩ later := by
    refine nameAndType_of_lastSlot hnext ?_ ?_ ?_
    all_goals
      rw [hinterned]
      decide
  obtain ⟨new, hlist, -, -, htexts⟩ :=
    hlaws.refused (.nameAndType "A" "I") _ later trivial hresult
  refine ⟨hlaws.resolves _ _ hanswered, hlaws.repeats (.className "A") 2 trivial hanswered, ?_,
    _, later, new, hresult, hlist, fun entry hmem => ?_⟩
  · rw [hlaws.push_iff, ← hlaws.next_eq, hnext]
    decide
  · obtain ⟨text, htext, heq, hnew⟩ := htexts entry hmem
    have hcases : text = "A" ∨ text = "I" := by simpa [PoolRequest.texts] using htext
    rcases hcases with rfl | rfl
    · rw [hinterned] at hnew
      exact absurd hnew (by decide)
    · exact heq

end PoolBuilder

end ClassDelta
