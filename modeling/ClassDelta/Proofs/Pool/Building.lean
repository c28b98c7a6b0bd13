import ClassDelta.Pool.Builder
import ClassDelta.Pool.Resolve
import ClassDelta.Proofs.Pool.RoundTrip
import ClassDelta.Proofs.Stateful

/-!
# What a builder answers

A `PoolRequest` is one call to a builder, and `PoolBuilder.after` is the builder
after a history of calls.  A call that finds no room counts as well, as what it
added on the way stays.

Every operation is covered by one triple, `Building.Meets`: it keeps the builder
sound, it takes nothing away, and an index it returns means what was asked for.
A property of entries can be carried along, provided that it survives as the
pool grows.  From the triples of the operations follow, by induction on the
history:

* `PoolBuilder.sound_after`, what holds of a builder at any time;
* `PoolRequest.Answered.means`, that indices keep their meaning;
* `Pool.fits_after`, that what is built by interning can be written.
-/

namespace ClassDelta

/-! ## Growing pools -/

namespace Pool

variable {pool later : Pool} {constant : Constant}

/-- The pool with one more entry, at the next free index. -/
def push (pool : Pool) (constant : Constant) : Pool := ⟨pool.entries.push constant⟩

/-- What is found in the pool is found in the later one as well. -/
def Extends (pool later : Pool) : Prop :=
  ∀ index constant, pool.get? index = some constant → later.get? index = some constant

theorem Extends.refl (pool : Pool) : pool.Extends pool := fun _ _ hfound => hfound

theorem Extends.trans {last : Pool} (h : pool.Extends later) (h' : later.Extends last) :
    pool.Extends last :=
  fun index constant hfound => h' index constant (h index constant hfound)

theorem isIndexed_empty : empty.IsIndexed :=
  @isIndexed_ofConstants [] (by decide)

@[simp] theorem constants_push : (pool.push constant).constants = pool.constants ++ [constant] := by
  simp [constants, push]

theorem toList_push :
    (pool.push constant).toList = pool.toList ++ [(UInt16.ofNat pool.entries.next, constant)] := by
  simp [toList, push]

theorem IsIndexed.push (h : pool.IsIndexed) (hroom : pool.entries.next + constant.slots ≤ 65535) :
    (pool.push constant).IsIndexed where
  consecutive := by
    rw [constants_push, ← OffsetVector.ofList_push, ← h.consecutive]
    rfl
  next_le := hroom

theorem IsIndexed.extends_push (h : pool.IsIndexed)
    (hroom : pool.entries.next + constant.slots ≤ 65535) : pool.Extends (pool.push constant) := by
  intro index found hfound
  rw [get?_eq_some_iff h] at hfound
  rw [get?_eq_some_iff (h.push hroom), toList_push]
  exact List.mem_append_left _ hfound

theorem text_of_get? {index : PoolIndex} {value : String}
    (h : pool.get? index = some (.utf8 value)) : pool.text index = .ok value := by
  simp only [text, h]

theorem IsIndexed.get?_push (h : pool.IsIndexed)
    (hroom : pool.entries.next + constant.slots ≤ 65535) :
    (pool.push constant).get? (UInt16.ofNat pool.entries.next) = some constant := by
  rw [get?_eq_some_iff (h.push hroom), toList_push]
  exact List.mem_append_right _ List.mem_cons_self

end Pool

/-! ## Sound builders -/

namespace PoolBuilder

/-- What is interned is found where it is said to be, and all entries have the
property. -/
structure Sound (good : Pool → Constant → Prop) (builder : PoolBuilder) : Prop where
  indexed : builder.pool.IsIndexed
  found : ∀ constant index, (constant, index) ∈ builder.interned →
    builder.pool.get? index = some constant
  good : ∀ constant ∈ builder.pool.constants, good builder.pool constant

/-- The later builder is sound, and nothing is lost on the way to it. -/
structure Grows (good : Pool → Constant → Prop) (builder later : PoolBuilder) : Prop where
  sound : later.Sound good
  keeps : builder.pool.Extends later.pool

theorem sound_fresh (good : Pool → Constant → Prop) : fresh.Sound good where
  indexed := Pool.isIndexed_empty
  found := by
    intro constant index hmem
    cases hmem
  good := by
    intro constant hmem
    cases hmem

theorem Grows.trans {good : Pool → Constant → Prop} {builder later last : PoolBuilder}
    (h : builder.Grows good later) (h' : later.Grows good last) : builder.Grows good last :=
  ⟨h'.sound, h.keeps.trans h'.keeps⟩

end PoolBuilder

/-- The property stays true as the pool grows. -/
def Pool.Persistent (property : Pool → Prop) : Prop :=
  ∀ pool later : Pool, pool.Extends later → property pool → property later

theorem Pool.persistent_get? (index : PoolIndex) (constant : Constant) :
    Persistent fun pool => pool.get? index = some constant :=
  fun _ _ hextends hfound => hextends index constant hfound

/-! ## Triples -/

namespace Building

variable {α β : Type} {good : Pool → Constant → Prop} {before : Pool → Prop}

/-- Where the precondition holds, the step keeps the builder sound, whether it
succeeds or not; where it succeeds, the postcondition holds. -/
def Meets (good : Pool → Constant → Prop) (before : Pool → Prop) (step : Building α)
    (after : Pool → α → Prop) : Prop :=
  ∀ builder : PoolBuilder, builder.Sound good → before builder.pool →
    match step builder with
    | .ok value later => builder.Grows good later ∧ after later.pool value
    | .error _ later => builder.Grows good later

theorem Meets.bind {step : Building α} {next : α → Building β} {between : Pool → α → Prop}
    {after : Pool → β → Prop} (h : Meets good before step between)
    (h' : ∀ value, Meets good (fun pool => between pool value) (next value) after) :
    Meets good before (step >>= next) after := by
  intro builder hsound hbefore
  have hstep := h builder hsound hbefore
  cases hresult : step builder with
  | error overflow later =>
    rw [hresult] at hstep
    rw [Stateful.bind_of_error hresult]
    exact hstep
  | ok value later =>
    rw [hresult] at hstep
    rw [Stateful.bind_of_ok hresult]
    have hnext := h' value later hstep.1.sound hstep.2
    cases hlast : next value later with
    | error overflow last =>
      rw [hlast] at hnext
      exact hstep.1.trans hnext
    | ok value last =>
      rw [hlast] at hnext
      exact ⟨hstep.1.trans hnext.1, hnext.2⟩

/-- The postcondition may draw on the precondition and on what the pool keeps. -/
theorem Meets.imp {step : Building α} {after after' : Pool → α → Prop}
    (h : Meets good before step after)
    (hafter : ∀ pool later value, before pool → pool.Extends later → after later value →
      after' later value) :
    Meets good before step after' := by
  intro builder hsound hbefore
  have hstep := h builder hsound hbefore
  cases hresult : step builder with
  | error overflow later =>
    rw [hresult] at hstep
    exact hstep
  | ok value later =>
    rw [hresult] at hstep
    exact ⟨hstep.1, hafter builder.pool later.pool value hbefore hstep.1.keeps hstep.2⟩

/-- What persists still holds after the step. -/
theorem Meets.keep {step : Building α} {after : Pool → α → Prop}
    (h : Meets good before step after) (hpersistent : Pool.Persistent before) :
    Meets good before step fun pool value => after pool value ∧ before pool :=
  h.imp fun pool later _ hbefore hextends hvalue =>
    ⟨hvalue, hpersistent pool later hextends hbefore⟩

theorem Meets.mono {step : Building α} {after after' : Pool → α → Prop}
    (h : Meets good before step after)
    (hafter : ∀ pool value, after pool value → after' pool value) :
    Meets good before step after' :=
  h.imp fun _ later value _ _ => hafter later value

end Building

/-! ## The operations -/

namespace PoolBuilder

variable {good : Pool → Constant → Prop} {before : Pool → Prop} {builder : PoolBuilder}
  {constant : Constant}

theorem push_of_room (hroom : builder.pool.slotCount.toNat + constant.slots ≤ 65535) :
    push constant builder =
      .ok builder.pool.slotCount { builder with pool := builder.pool.push constant } :=
  if_pos hroom

theorem push_of_full (hfull : ¬ builder.pool.slotCount.toNat + constant.slots ≤ 65535) :
    push constant builder = .error ⟨builder.pool.slotCount.toNat, constant⟩ builder :=
  if_neg hfull

/-- In a sound builder nothing is lost of the next index when 16 bits of it are
kept, and an entry is refused exactly if the index behind it takes more of them. -/
theorem Sound.push_eq (h : builder.Sound good) (constant : Constant) :
    push constant builder =
      if builder.pool.entries.next + constant.slots ≤ 65535 then
        .ok (UInt16.ofNat builder.pool.entries.next)
          { builder with pool := builder.pool.push constant }
      else .error ⟨builder.pool.entries.next, constant⟩ builder := by
  rw [← h.indexed.toNat_slotCount]
  split
  · rename_i hroom
    rw [push_of_room hroom, UInt16.ofNat_toNat]
  · rename_i hfull
    rw [push_of_full hfull]

/-- An entry that has the property may be added, and all others keep it. -/
theorem Sound.grows_push (h : builder.Sound good)
    (hgood : ∀ constant, Pool.Persistent (good · constant)) (hnew : good builder.pool constant)
    (hroom : builder.pool.entries.next + constant.slots ≤ 65535) :
    builder.Grows good { builder with pool := builder.pool.push constant } := by
  have hextends := h.indexed.extends_push hroom
  refine ⟨⟨h.indexed.push hroom, fun other index hmem => ?_, fun other hmem => ?_⟩, hextends⟩
  · exact hextends index other (h.found other index hmem)
  · rcases List.mem_append.1 (Pool.constants_push ▸ hmem) with hold | hadded
    · exact hgood other _ _ hextends (h.good other hold)
    · rw [List.mem_singleton] at hadded
      subst hadded
      exact hgood other _ _ hextends hnew

theorem meets_push (hgood : ∀ constant, Pool.Persistent (good · constant)) (constant : Constant)
    (hnew : ∀ pool, before pool → good pool constant) :
    Building.Meets good before (push constant) fun pool index =>
      pool.get? index = some constant := by
  intro builder hsound hbefore
  rw [hsound.push_eq]
  by_cases hroom : builder.pool.entries.next + constant.slots ≤ 65535
  · rw [if_pos hroom]
    exact ⟨hsound.grows_push hgood (hnew _ hbefore) hroom, hsound.indexed.get?_push hroom⟩
  · rw [if_neg hroom]
    exact ⟨hsound, .refl builder.pool⟩

theorem mem_of_lookup_eq_some {interned : List (Constant × PoolIndex)} {index : PoolIndex}
    (h : interned.lookup constant = some index) : (constant, index) ∈ interned := by
  obtain ⟨front, back, rfl, -⟩ := List.lookup_eq_some_iff.1 h
  exact List.mem_append_right _ List.mem_cons_self

theorem meets_intern (hgood : ∀ constant, Pool.Persistent (good · constant)) (constant : Constant)
    (hnew : ∀ pool, before pool → good pool constant) :
    Building.Meets good before (intern constant) fun pool index =>
      pool.get? index = some constant := by
  intro builder hsound hbefore
  rw [intern, Stateful.get_bind]
  cases hlookup : builder.interned.lookup constant with
  | some index =>
    have hfound := hsound.found constant index (mem_of_lookup_eq_some hlookup)
    exact ⟨⟨hsound, .refl builder.pool⟩, hfound⟩
  | none =>
    have hpush := meets_push hgood constant hnew builder hsound hbefore
    cases hresult : push constant builder with
    | error overflow later =>
      rw [hresult] at hpush
      simp only [Stateful.bind_of_error hresult]
      exact hpush
    | ok index later =>
      rw [hresult] at hpush
      simp only [Stateful.bind_of_ok hresult]
      obtain ⟨⟨hlater, hkeeps⟩, hfound⟩ := hpush
      refine ⟨⟨⟨hlater.indexed, ?_, hlater.good⟩, hkeeps⟩, hfound⟩
      intro other place hmem
      rcases List.mem_cons.1 hmem with heq | hold
      · cases heq
        exact hfound
      · exact hlater.found other place hold

end PoolBuilder

/-! ## Requests -/

/-- A call to a builder. -/
inductive PoolRequest
  | text (text : String)
  | className (name : String)
  | string (value : String)
  | nameAndType (name descriptor : String)
  | integer (value : Int32)
  | long (value : Int64)
  /-- The entry is added in any case. -/
  | push (constant : Constant)
deriving DecidableEq

namespace PoolRequest

/-- Make the call. -/
def perform : PoolRequest → Building PoolIndex
  | text value => PoolBuilder.text value
  | className name => PoolBuilder.className name
  | string value => PoolBuilder.string value
  | nameAndType name descriptor => PoolBuilder.nameAndType name descriptor
  | integer value => PoolBuilder.integer value
  | long value => PoolBuilder.long value
  | push constant => PoolBuilder.push constant

/-- What the index leads to is what was asked for. -/
def Means (pool : Pool) : PoolRequest → PoolIndex → Prop
  | text value, index => pool.get? index = some (.utf8 value)
  | className name, index => ∃ text, pool.get? index = some (.named .className text) ∧
      pool.get? text = some (.utf8 name)
  | string value, index => ∃ text, pool.get? index = some (.named .string text) ∧
      pool.get? text = some (.utf8 value)
  | nameAndType name descriptor, index => ∃ first second,
      pool.get? index = some (.nameAndType first second) ∧
        pool.get? first = some (.utf8 name) ∧ pool.get? second = some (.utf8 descriptor)
  | integer value, index => pool.get? index = some (.integer value)
  | long value, index => pool.get? index = some (.long value)
  | push constant, index => pool.get? index = some constant

/-- The entries that the call may add. -/
def Introduces (pool : Pool) : PoolRequest → Constant → Prop
  | text value, constant => constant = .utf8 value
  | className name, constant => constant = .utf8 name ∨
      ∃ text, pool.get? text = some (.utf8 name) ∧ constant = .named .className text
  | string value, constant => constant = .utf8 value ∨
      ∃ text, pool.get? text = some (.utf8 value) ∧ constant = .named .string text
  | nameAndType name descriptor, constant => constant = .utf8 name ∨ constant = .utf8 descriptor ∨
      ∃ first second, pool.get? first = some (.utf8 name) ∧
        pool.get? second = some (.utf8 descriptor) ∧ constant = .nameAndType first second
  | integer value, constant => constant = .integer value
  | long value, constant => constant = .long value
  | push added, constant => constant = added

theorem Means.persistent (request : PoolRequest) (index : PoolIndex) :
    Pool.Persistent fun pool => request.Means pool index := by
  intro pool later hextends hmeans
  cases request with
  | text value => exact hextends _ _ hmeans
  | integer value => exact hextends _ _ hmeans
  | long value => exact hextends _ _ hmeans
  | push constant => exact hextends _ _ hmeans
  | className name =>
    obtain ⟨text, hindex, htext⟩ := hmeans
    exact ⟨text, hextends _ _ hindex, hextends _ _ htext⟩
  | string value =>
    obtain ⟨text, hindex, htext⟩ := hmeans
    exact ⟨text, hextends _ _ hindex, hextends _ _ htext⟩
  | nameAndType name descriptor =>
    obtain ⟨first, second, hindex, hfirst, hsecond⟩ := hmeans
    exact ⟨first, second, hextends _ _ hindex, hextends _ _ hfirst, hextends _ _ hsecond⟩

section Meets

variable {good : Pool → Constant → Prop} (hgood : ∀ constant, Pool.Persistent (good · constant))

include hgood

theorem meets_text {before : Pool → Prop} (value : String)
    (hnew : ∀ pool, good pool (.utf8 value)) :
    Building.Meets good before (PoolBuilder.text value) fun pool index =>
      pool.get? index = some (.utf8 value) :=
  PoolBuilder.meets_intern hgood _ fun pool _ => hnew pool

/-- An entry that names a text is found together with that text. -/
theorem meets_named (role : TextRole) (value : String) (htext : ∀ pool, good pool (.utf8 value))
    (hnamed : ∀ pool text, pool.get? text = some (.utf8 value) → good pool (.named role text)) :
    Building.Meets good (fun _ => True)
      (PoolBuilder.text value >>= fun text => PoolBuilder.intern (.named role text))
      fun pool index => ∃ text, pool.get? index = some (.named role text) ∧
        pool.get? text = some (.utf8 value) := by
  refine (meets_text hgood value htext).bind fun text => ?_
  have hintern := PoolBuilder.meets_intern hgood (.named role text) fun pool => hnamed pool text
  exact (hintern.keep (Pool.persistent_get? text _)).mono fun _ _ hfound => ⟨text, hfound⟩

theorem meets_nameAndType (name descriptor : String) (hname : ∀ pool, good pool (.utf8 name))
    (hdescriptor : ∀ pool, good pool (.utf8 descriptor))
    (hboth : ∀ pool first second, pool.get? second = some (.utf8 descriptor) ∧
      pool.get? first = some (.utf8 name) → good pool (.nameAndType first second)) :
    Building.Meets good (fun _ => True) (PoolBuilder.nameAndType name descriptor)
      (Means · (nameAndType name descriptor)) := by
  refine (meets_text hgood name hname).bind fun first => ?_
  have hsecond := (meets_text hgood descriptor hdescriptor).keep
    (Pool.persistent_get? first (.utf8 name))
  refine hsecond.bind fun second => ?_
  have hpersistent : Pool.Persistent fun pool => pool.get? second = some (.utf8 descriptor) ∧
      pool.get? first = some (.utf8 name) := fun pool later hextends hfound =>
    ⟨hextends _ _ hfound.1, hextends _ _ hfound.2⟩
  have hintern := PoolBuilder.meets_intern hgood (.nameAndType first second) fun pool =>
    hboth pool first second
  refine (hintern.keep hpersistent).mono fun pool index hfound => ?_
  exact ⟨first, second, hfound.1, hfound.2.2, hfound.2.1⟩

/-- What every call does: the index means what was asked for. -/
theorem meets_perform (request : PoolRequest)
    (hnew : ∀ pool constant, request.Introduces pool constant → good pool constant) :
    Building.Meets good (fun _ => True) request.perform (Means · request) := by
  cases request with
  | text value => exact meets_text hgood value fun pool => hnew pool _ rfl
  | className name =>
    exact meets_named hgood .className name (fun pool => hnew pool _ (.inl rfl))
      fun pool text htext => hnew pool _ (.inr ⟨text, htext, rfl⟩)
  | string value =>
    exact meets_named hgood .string value (fun pool => hnew pool _ (.inl rfl))
      fun pool text htext => hnew pool _ (.inr ⟨text, htext, rfl⟩)
  | nameAndType name descriptor =>
    exact meets_nameAndType hgood name descriptor (fun pool => hnew pool _ (.inl rfl))
      (fun pool => hnew pool _ (.inr (.inl rfl)))
      fun pool first second hfound =>
        hnew pool _ (.inr (.inr ⟨first, second, hfound.2, hfound.1, rfl⟩))
  | integer value => exact PoolBuilder.meets_intern hgood _ fun pool _ => hnew pool _ rfl
  | long value => exact PoolBuilder.meets_intern hgood _ fun pool _ => hnew pool _ rfl
  | push constant => exact PoolBuilder.meets_push hgood _ fun pool _ => hnew pool _ rfl

end Meets

end PoolRequest

/-! ## Histories -/

namespace PoolBuilder

/-- The builder after a call, whether there was room or not. -/
def next (builder : PoolBuilder) (request : PoolRequest) : PoolBuilder :=
  match request.perform builder with
  | .ok _ later => later
  | .error _ later => later

/-- The builder after a history of calls. -/
def after (history : List PoolRequest) : PoolBuilder := history.foldl next fresh

theorem after_append (history later : List PoolRequest) :
    after (history ++ later) = later.foldl next (after history) := by
  simp [after]

section Grows

variable {good : Pool → Constant → Prop} (hgood : ∀ constant, Pool.Persistent (good · constant))

include hgood

theorem Sound.grows_next {builder : PoolBuilder} (h : builder.Sound good) (request : PoolRequest)
    (hnew : ∀ pool constant, request.Introduces pool constant → good pool constant) :
    builder.Grows good (builder.next request) := by
  have hmeets := PoolRequest.meets_perform hgood request hnew builder h trivial
  unfold next
  cases hresult : request.perform builder with
  | ok index later =>
    rw [hresult] at hmeets
    exact hmeets.1
  | error overflow later =>
    rw [hresult] at hmeets
    exact hmeets

theorem Sound.grows_foldl {builder : PoolBuilder} (h : builder.Sound good)
    (history : List PoolRequest)
    (hnew : ∀ request ∈ history, ∀ pool constant, request.Introduces pool constant →
      good pool constant) :
    builder.Grows good (history.foldl next builder) := by
  induction history generalizing builder with
  | nil => exact ⟨h, .refl builder.pool⟩
  | cons request later ih =>
    have hfirst := h.grows_next hgood request (hnew request List.mem_cons_self)
    have hlater := ih hfirst.sound fun other hmem => hnew other (List.mem_cons_of_mem _ hmem)
    exact hfirst.trans hlater

/-- What holds of every entry that a call may add holds of all entries at any
time. -/
theorem sound_after (history : List PoolRequest)
    (hnew : ∀ request ∈ history, ∀ pool constant, request.Introduces pool constant →
      good pool constant) :
    (after history).Sound good :=
  ((sound_fresh good).grows_foldl hgood history hnew).sound

end Grows

theorem isSound_after (history : List PoolRequest) : (after history).Sound fun _ _ => True :=
  sound_after (fun _ _ _ _ _ => trivial) history fun _ _ _ _ _ => trivial

/-- What was added is never lost. -/
theorem extends_after (history later : List PoolRequest) :
    (after history).pool.Extends (after (history ++ later)).pool := by
  rw [after_append]
  exact ((isSound_after history).grows_foldl (fun _ _ _ _ _ => trivial) later
    fun _ _ _ _ _ => trivial).keeps

end PoolBuilder

namespace PoolRequest

/-- One of the calls was this request, and it was answered with the index. -/
def Answered (history : List PoolRequest) (request : PoolRequest) (index : PoolIndex) : Prop :=
  ∃ earlier later builder, history = earlier ++ request :: later ∧
    request.perform (PoolBuilder.after earlier) = .ok index builder

/-- An index means what it was the answer to, however the builder goes on. -/
theorem Answered.means {history : List PoolRequest} {request : PoolRequest} {index : PoolIndex}
    (h : Answered history request index) :
    request.Means (PoolBuilder.after history).pool index := by
  obtain ⟨earlier, later, builder, rfl, hresult⟩ := h
  have hmeets := meets_perform (fun _ _ _ _ _ => trivial) request (fun _ _ _ => trivial) _
    (PoolBuilder.isSound_after earlier) trivial
  rw [hresult] at hmeets
  have hnext : PoolBuilder.after (earlier ++ [request]) = builder := by
    rw [PoolBuilder.after_append]
    simp [PoolBuilder.next, hresult]
  have hextends := PoolBuilder.extends_after (earlier ++ [request]) later
  rw [hnext, List.append_assoc, List.singleton_append] at hextends
  exact Means.persistent request index _ _ hextends hmeets.2

/-- The call is one to intern. -/
def IsIntern : PoolRequest → Prop
  | push _ => False
  | _ => True

instance : DecidablePred IsIntern
  | push _ => inferInstanceAs (Decidable False)
  | text _ | className _ | string _ | nameAndType _ _ | integer _ | long _ =>
    inferInstanceAs (Decidable True)

/-- The call is one to intern, and its texts are short enough to be written. -/
def Fits : PoolRequest → Prop
  | text value => (Constant.utf8 value).Fits
  | className name => (Constant.utf8 name).Fits
  | string value => (Constant.utf8 value).Fits
  | nameAndType name descriptor => (Constant.utf8 name).Fits ∧ (Constant.utf8 descriptor).Fits
  | integer _ => True
  | long _ => True
  | push _ => False

instance : DecidablePred Fits
  | text value => inferInstanceAs (Decidable (Constant.utf8 value).Fits)
  | className name => inferInstanceAs (Decidable (Constant.utf8 name).Fits)
  | string value => inferInstanceAs (Decidable (Constant.utf8 value).Fits)
  | nameAndType name descriptor =>
    inferInstanceAs (Decidable ((Constant.utf8 name).Fits ∧ (Constant.utf8 descriptor).Fits))
  | integer _ => inferInstanceAs (Decidable True)
  | long _ => inferInstanceAs (Decidable True)
  | push _ => inferInstanceAs (Decidable False)

end PoolRequest

/-! ## Writing what was built -/

/-- The entry refers to nothing but texts. -/
def Constant.RefersToTexts (pool : Pool) (constant : Constant) : Prop :=
  ∀ index ∈ constant.references, ∃ text, pool.get? index = some (.utf8 text)

theorem Constant.RefersToTexts.persistent (constant : Constant) :
    Pool.Persistent constant.RefersToTexts := by
  intro pool later hextends hrefers index hmem
  obtain ⟨text, htext⟩ := hrefers index hmem
  exact ⟨text, hextends _ _ htext⟩

theorem Constant.RefersToTexts.linked {pool : Pool} (hindexed : pool.IsIndexed)
    {constant : Constant} (h : constant.RefersToTexts pool) :
    ∀ index ∈ constant.references, ∃ target, (index, target) ∈ pool.toList := by
  intro index hmem
  obtain ⟨text, hfound⟩ := h index hmem
  exact ⟨.utf8 text, (Pool.get?_eq_some_iff hindexed).1 hfound⟩

/-- The entry can be written, and it refers to nothing but texts. -/
structure Constant.IsPlain (pool : Pool) (constant : Constant) : Prop where
  fits : constant.Fits
  refers : ∀ index ∈ constant.references, ∃ text, pool.get? index = some (.utf8 text)

theorem Constant.IsPlain.persistent (constant : Constant) :
    Pool.Persistent constant.IsPlain := fun pool later hextends hplain =>
  ⟨hplain.fits, RefersToTexts.persistent constant pool later hextends hplain.refers⟩

namespace PoolRequest

theorem Fits.isIntern {request : PoolRequest} (h : request.Fits) : request.IsIntern := by
  cases request with
  | push constant => exact h
  | _ => trivial

/-- What interning adds refers to nothing but texts. -/
theorem IsIntern.refersToTexts {request : PoolRequest} (h : request.IsIntern) {pool : Pool}
    {constant : Constant} (hnew : request.Introduces pool constant) :
    constant.RefersToTexts pool := by
  unfold Constant.RefersToTexts
  cases request with
  | text value =>
    subst hnew
    simp [Constant.references]
  | className name =>
    rcases hnew with rfl | ⟨text, hfound, rfl⟩
    · simp [Constant.references]
    · simpa [Constant.references] using ⟨name, hfound⟩
  | string value =>
    rcases hnew with rfl | ⟨text, hfound, rfl⟩
    · simp [Constant.references]
    · simpa [Constant.references] using ⟨value, hfound⟩
  | nameAndType name descriptor =>
    rcases hnew with rfl | rfl | ⟨first, second, hfirst, hsecond, rfl⟩
    · simp [Constant.references]
    · simp [Constant.references]
    · simpa [Constant.references] using ⟨⟨name, hfirst⟩, descriptor, hsecond⟩
  | integer value =>
    subst hnew
    simp [Constant.references]
  | long value =>
    subst hnew
    simp [Constant.references]
  | push constant => exact h.elim

/-- Interning short texts adds plain entries only. -/
theorem Fits.isPlain {request : PoolRequest} (h : request.Fits) {pool : Pool}
    {constant : Constant} (hnew : request.Introduces pool constant) : constant.IsPlain pool := by
  refine ⟨?_, h.isIntern.refersToTexts hnew⟩
  cases request with
  | text value =>
    subst hnew
    exact h
  | className name =>
    rcases hnew with rfl | ⟨text, hfound, rfl⟩
    · exact h
    · trivial
  | string value =>
    rcases hnew with rfl | ⟨text, hfound, rfl⟩
    · exact h
    · trivial
  | nameAndType name descriptor =>
    rcases hnew with rfl | rfl | ⟨first, second, hfirst, hsecond, rfl⟩
    · exact h.1
    · exact h.2
    · trivial
  | integer value =>
    subst hnew
    trivial
  | long value =>
    subst hnew
    trivial
  | push constant => exact h.elim

end PoolRequest

/-- Pools that were built by interning short texts can be written. -/
theorem Pool.fits_after {history : List PoolRequest} (h : ∀ request ∈ history, request.Fits) :
    (PoolBuilder.after history).pool.Fits := by
  have hsound : (PoolBuilder.after history).Sound fun pool constant => constant.IsPlain pool :=
    PoolBuilder.sound_after Constant.IsPlain.persistent history
      fun request hmem _ _ => (h request hmem).isPlain
  refine ⟨hsound.indexed, fun constant hmem => ?_, fun constant hmem => ?_⟩
  · have hrefers : constant.RefersToTexts _ := (hsound.good constant hmem).refers
    exact hrefers.linked hsound.indexed
  · exact (hsound.good constant hmem).fits

end ClassDelta
