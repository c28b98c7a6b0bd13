import ClassDelta.Proofs.Pool.ReadBack

/-!
# Where references lead

An entry that refers to others stores their indices.  `Constant.Stores` lists
where, kind by kind, and `Constant.stores_iff` says that the check of a pool goes
through exactly these.

A look-up goes to the entry at its index and from there at most to texts that
this entry stores (`Pool.LookupResult`).  Where no reference dangles, only the first
of these steps can find nothing, so a look-up that finds nothing blames the
index it was given (`Pool.FailsAs`).

`Pool.referenceLaws_read_and_after` says all this of the pools that are read and
of those that are built by interning.
-/

namespace ClassDelta

open Pool

/-! ## Stored indices -/

/-- The entry stores the index of another one.  The number of a bootstrap method
is no index. -/
inductive Constant.Stores : Constant → PoolIndex → Prop
  | text (role : TextRole) (text : PoolIndex) : Stores (.named role text) text
  | owner (role : MemberRole) (owner described : PoolIndex) :
    Stores (.member role owner described) owner
  | memberDescribed (role : MemberRole) (owner described : PoolIndex) :
    Stores (.member role owner described) described
  | name (name descriptor : PoolIndex) : Stores (.nameAndType name descriptor) name
  | descriptor (name descriptor : PoolIndex) : Stores (.nameAndType name descriptor) descriptor
  | target (kind : HandleKind) (target : PoolIndex) : Stores (.methodHandle kind target) target
  | dynamicDescribed (role : DynamicRole) (bootstrap : UInt16) (described : PoolIndex) :
    Stores (.dynamic role bootstrap described) described

/-- The references of an entry are the indices that it stores. -/
theorem Constant.stores_iff {constant : Constant} {index : PoolIndex} :
    constant.Stores index ↔ index ∈ constant.references := by
  constructor
  · rintro (_ | _ | _ | _ | _ | _ | _) <;> simp [references]
  · intro hmem
    cases constant with
    | utf8 _ | integer _ | float _ | long _ | double _ => cases hmem
    | named role text =>
      obtain rfl := List.mem_singleton.1 hmem
      exact .text role _
    | member role owner described =>
      rcases List.mem_pair.1 hmem with rfl | rfl
      · exact .owner role _ described
      · exact .memberDescribed role owner _
    | nameAndType name descriptor =>
      rcases List.mem_pair.1 hmem with rfl | rfl
      · exact .name _ descriptor
      · exact .descriptor name _
    | methodHandle kind target =>
      obtain rfl := List.mem_singleton.1 hmem
      exact .target kind _
    | dynamic role bootstrap described =>
      obtain rfl := List.mem_singleton.1 hmem
      exact .dynamicDescribed role bootstrap _

namespace Pool

variable {α : Type} {pool : Pool}

/-! ## What a look-up can come to -/

/-- What a look-up at an index comes to: a value, the wrong entry at the index
itself, or the wrong entry where a text should be that the entry at the index
stores. -/
inductive LookupResult (pool : Pool) (index : PoolIndex) (wanted : Wanted) : Resolved α → Prop
  | value {constant : Constant} (hfound : pool.get? index = some constant) (value : α) :
    LookupResult pool index wanted (.ok value)
  | here : LookupResult pool index wanted (pool.unresolved index wanted)
  | there {constant : Constant} {place : PoolIndex} (hfound : pool.get? index = some constant)
    (hstores : constant.Stores place) : LookupResult pool index wanted (pool.unresolved place .text)

theorem lookupResult_text (pool : Pool) (index : PoolIndex) :
    LookupResult pool index .text (pool.text index) := by
  unfold text
  split
  · rename_i value hfound
    exact .value hfound value
  · exact .here

/-- A text that an entry stores is a part of looking up the entry. -/
theorem LookupResult.ofText {index place : PoolIndex} {wanted : Wanted} {constant : Constant}
    (hfound : pool.get? index = some constant) (hstores : constant.Stores place)
    {next : String → Resolved α} (hnext : ∀ value, LookupResult pool index wanted (next value)) :
    LookupResult pool index wanted (pool.text place >>= next) := by
  unfold text
  split
  · rename_i value _
    exact hnext value
  · exact .there hfound hstores

theorem lookupResult_className (pool : Pool) (index : PoolIndex) :
    LookupResult pool index .className (pool.className index) := by
  unfold className
  split
  · rename_i name hfound
    have hname : LookupResult pool index .className (pool.text name >>= pure) :=
      .ofText hfound (.text .className name) (LookupResult.value hfound)
    exact bind_pure (pool.text name) ▸ hname
  · exact .here

theorem lookupResult_nameAndType (pool : Pool) (index : PoolIndex) :
    LookupResult pool index .nameAndType (pool.nameAndType index) := by
  unfold nameAndType
  split
  · rename_i name descriptor hfound
    exact .ofText hfound (.name name descriptor) fun first =>
      .ofText hfound (.descriptor name descriptor) fun second => .value hfound (first, second)
  · exact .here

theorem lookupResult_literal (pool : Pool) (index : PoolIndex) :
    LookupResult pool index .literal (pool.literal index) := by
  unfold literal
  split
  · rename_i value hfound
    exact .value hfound _
  · rename_i value hfound
    exact .value hfound _
  · rename_i bits hfound
    exact .value hfound _
  · rename_i bits hfound
    exact .value hfound _
  · rename_i text hfound
    rw [map_eq_pure_bind]
    exact .ofText hfound (.text .string text) fun value => .value hfound (Quoted.quote value)
  · exact .here

/-! ## What a look-up can fail with -/

/-- No entry stores an index where nothing is found. -/
def IsLinked (pool : Pool) : Prop :=
  ∀ index constant, (index, constant) ∈ pool.toList →
    ∀ target, constant.Stores target → (pool.get? target).isSome

/-- How a look-up fails.  That nothing was found is said if and only if there is
nothing at the index given, and then of this index; all other failures say what
is found in its place. -/
structure FailsAs (pool : Pool) (follow : PoolIndex → Resolved α) (wanted : Wanted) : Prop where
  missing_iff : ∀ index, (∃ place what, follow index = .error (.unresolved place what none)) ↔
    pool.get? index = none
  missing : ∀ index, pool.get? index = none →
    follow index = .error (.unresolved index wanted none)
  mistaken : ∀ index error, follow index = .error error → pool.get? index ≠ none →
    ∃ place what constant, pool.get? place = some constant ∧
      error = .unresolved place what (some constant.kind)

theorem unresolved_of_none {index : PoolIndex} {wanted : Wanted} (h : pool.get? index = none) :
    (pool.unresolved index wanted : Resolved α) = .error (.unresolved index wanted none) := by
  rw [unresolved, h]
  rfl

theorem unresolved_of_some {index : PoolIndex} {wanted : Wanted} {constant : Constant}
    (h : pool.get? index = some constant) :
    (pool.unresolved index wanted : Resolved α) =
      .error (.unresolved index wanted (some constant.kind)) := by
  rw [unresolved, h]
  rfl

/-- Where no reference dangles, a text that an entry stores is there, if not as a
text. -/
theorem IsLinked.failsAs (hlinked : pool.IsLinked) (hindexed : pool.IsIndexed)
    {follow : PoolIndex → Resolved α} {wanted : Wanted}
    (h : ∀ index, LookupResult pool index wanted (follow index)) : pool.FailsAs follow wanted := by
  have hmissing (index : PoolIndex) (hnone : pool.get? index = none) :
      follow index = .error (.unresolved index wanted none) := by
    generalize hresult : follow index = result
    cases hresult ▸ h index with
    | value hfound value =>
      rw [hnone] at hfound
      cases hfound
    | here => exact unresolved_of_none hnone
    | there hfound hstores =>
      rw [hnone] at hfound
      cases hfound
  have hmistaken (index : PoolIndex) (error : ParseError) (herror : follow index = .error error)
      (hsome : pool.get? index ≠ none) :
      ∃ place what constant, pool.get? place = some constant ∧
        error = .unresolved place what (some constant.kind) := by
    generalize hresult : follow index = result at herror
    cases hresult ▸ h index with
    | value hfound value => cases herror
    | here =>
      obtain ⟨constant, hfound⟩ := Option.ne_none_iff_exists'.1 hsome
      rw [unresolved_of_some hfound] at herror
      cases herror
      exact ⟨index, wanted, constant, hfound, rfl⟩
    | @there first place hfound hstores =>
      have hlisted := (get?_eq_some_iff hindexed).1 hfound
      obtain ⟨constant, htarget⟩ := Option.isSome_iff_exists.1
        (hlinked index first hlisted place hstores)
      rw [unresolved_of_some htarget] at herror
      cases herror
      exact ⟨place, .text, constant, htarget, rfl⟩
  refine ⟨fun index => ⟨?_, fun hnone => ⟨index, wanted, hmissing index hnone⟩⟩, hmissing,
    hmistaken⟩
  rintro ⟨place, what, herror⟩
  by_contra hsome
  obtain ⟨_, _, constant, _, hkind⟩ := hmistaken index _ herror hsome
  cases hkind

/-- How a pool that keeps its references deals with them. -/
structure ReferenceLaws (pool : Pool) : Prop where
  linked : pool.IsLinked
  text : pool.FailsAs pool.text .text
  className : pool.FailsAs pool.className .className
  nameAndType : pool.FailsAs pool.nameAndType .nameAndType
  literal : pool.FailsAs pool.literal .literal

theorem IsIndexed.referenceLaws (hindexed : pool.IsIndexed)
    (h : ∀ constant ∈ pool.constants, ∀ index ∈ constant.references,
      ∃ target, (index, target) ∈ pool.toList) : pool.ReferenceLaws := by
  have hlinked : pool.IsLinked := by
    intro index constant hlisted target hstores
    rw [isSome_get?_iff hindexed]
    exact h constant (mem_constants_iff.2 ⟨index, hlisted⟩) target (Constant.stores_iff.1 hstores)
  exact ⟨hlinked, hlinked.failsAs hindexed (lookupResult_text pool),
    hlinked.failsAs hindexed (lookupResult_className pool),
    hlinked.failsAs hindexed (lookupResult_nameAndType pool),
    hlinked.failsAs hindexed (lookupResult_literal pool)⟩

/-! ## Pools that were built by interning -/

/-- Look-ups succeed at every entry of the kind that they want. -/
structure AlwaysResolves (pool : Pool) : Prop where
  className : ∀ index place, (index, .named .className place) ∈ pool.toList →
    ∃ name, pool.get? place = some (.utf8 name) ∧ pool.className index = .ok name
  nameAndType : ∀ index first second, (index, .nameAndType first second) ∈ pool.toList →
    ∃ name descriptor, pool.get? first = some (.utf8 name) ∧
      pool.get? second = some (.utf8 descriptor) ∧
      pool.nameAndType index = .ok (name, descriptor)
  string : ∀ index place, (index, .named .string place) ∈ pool.toList →
    ∃ value, pool.get? place = some (.utf8 value) ∧
      pool.literal index = .ok (Quoted.quote value)

/-- It is enough that all references lead to texts. -/
theorem IsIndexed.alwaysResolves (hindexed : pool.IsIndexed)
    (h : ∀ constant ∈ pool.constants, constant.RefersToTexts pool) : pool.AlwaysResolves := by
  have htext {index place : PoolIndex} {constant : Constant}
      (hlisted : (index, constant) ∈ pool.toList) (hstores : constant.Stores place) :
      ∃ value, pool.get? place = some (.utf8 value) :=
    h constant (mem_constants_iff.2 ⟨index, hlisted⟩) place (Constant.stores_iff.1 hstores)
  refine ⟨fun index place hlisted => ?_, fun index first second hlisted => ?_,
    fun index place hlisted => ?_⟩
  · obtain ⟨name, hname⟩ := htext hlisted (.text _ place)
    have hfound := (get?_eq_some_iff hindexed).2 hlisted
    refine ⟨name, hname, ?_⟩
    simp only [className, hfound, text_of_get? hname]
  · obtain ⟨name, hname⟩ := htext hlisted (.name first second)
    obtain ⟨descriptor, hdescriptor⟩ := htext hlisted (.descriptor first second)
    have hfound := (get?_eq_some_iff hindexed).2 hlisted
    refine ⟨name, descriptor, hname, hdescriptor, ?_⟩
    simp only [nameAndType, hfound, text_of_get? hname, text_of_get? hdescriptor]
    rfl
  · obtain ⟨value, hvalue⟩ := htext hlisted (.text _ place)
    have hfound := (get?_eq_some_iff hindexed).2 hlisted
    refine ⟨value, hvalue, ?_⟩
    simp only [literal, hfound, text_of_get? hvalue]
    rfl

/-! ## Both kinds of pools -/

/-- References never dangle, neither in a pool that was read, whatever the bytes,
nor in one that was built by interning, whatever the calls; in the latter all of
them lead to what is wanted there. -/
theorem referenceLaws_read_and_after :
    (∀ (cursor after : Cursor) (pool : Pool), Pool.read cursor = .ok pool after →
      pool.ReferenceLaws) ∧
    ∀ history : List PoolRequest, (∀ request ∈ history, request.IsIntern) →
      (PoolBuilder.after history).pool.ReferenceLaws ∧
        (PoolBuilder.after history).pool.AlwaysResolves := by
  constructor
  · intro cursor after pool hread
    have hfits : pool.Fits := returns_read cursor pool after hread
    exact hfits.toIsIndexed.referenceLaws hfits.linked
  · intro history hintern
    have hindexed := (PoolBuilder.isSound_after history).indexed
    exact ⟨hindexed.referenceLaws (PoolBuilder.linked_after hintern),
      hindexed.alwaysResolves (PoolBuilder.refersToTexts_after hintern)⟩

/-- A class comes before its name, and a handle leads to what is no member; both
are found out when they are looked up and not before.  What is built answers for
the second name of two. -/
theorem referenceLaws_read_and_after_forward :
    let bytes : Bytes := [0, 5, 7, 0, 3, 15, 6, 0, 4, 1, 0, 1, 65, 7, 0, 2]
    let pool := ofConstants
      [.named .className 3, .methodHandle .invokeStatic 4, .utf8 "A", .named .className 2]
    let history : List PoolRequest := [.string "a", .long 7, .nameAndType "a" "I"]
    Pool.read (.start bytes) = .ok pool ⟨16, []⟩ ∧
      (pool.get? 3).isSome ∧ (pool.get? 4).isSome ∧
      pool.className 5 = .error (.unresolved 5 .className none) ∧
      (∃ place what constant, pool.get? place = some constant ∧
        ParseError.unresolved 2 .text (some .methodHandle) =
          .unresolved place what (some constant.kind)) ∧
      (∀ request ∈ history, request.IsIntern) ∧
      ∃ name descriptor,
        (PoolBuilder.after history).pool.nameAndType 6 = .ok (name, descriptor) := by
  intro bytes pool history
  obtain ⟨hreads, hbuilds⟩ := referenceLaws_read_and_after
  have hindexed : pool.IsIndexed := isIndexed_ofConstants (by decide)
  have hfits : pool.Fits :=
    ⟨hindexed, (danglingReference?_eq_none_iff hindexed).1 (by decide), by decide⟩
  have hwritten : pool.write = bytes := by decide
  have hread : Pool.read (.start bytes) = .ok pool ⟨16, []⟩ := by
    simpa [hwritten, bytes, Cursor.start] using reads_write hfits 0 []
  have hintern : ∀ request ∈ history, request.IsIntern := by decide
  have hlaws := hreads _ _ _ hread
  obtain ⟨name, descriptor, -, -, hfound⟩ :=
    (hbuilds history hintern).2.nameAndType 6 1 5 (by decide)
  exact ⟨hread, hlaws.linked 1 (.named .className 3) (by decide) 3 (.text _ 3),
    hlaws.linked 2 (.methodHandle .invokeStatic 4) (by decide) 4 (.target _ 4),
    hlaws.className.missing 5 (by decide),
    hlaws.className.mistaken 4 (.unresolved 2 .text (some .methodHandle)) (by decide) (by decide),
    hintern, name, descriptor, hfound⟩

end Pool

end ClassDelta
