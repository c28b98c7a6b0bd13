import ClassDelta.Proofs.Bytes.Normalising
import ClassDelta.Proofs.ClassFile.Stability
import ClassDelta.Proofs.Pool.IndexSpace

/-!
# Canonical class files

Reading a class file forgets two things: the undefined bits in the words of
flags of the class, its fields and its methods, and which of several forms the
characters of a text had.  A `VerbatimFile` is a class file in which both still
stand as they are in the bytes.  `VerbatimFile.contents` is the class file it is
read as.

* `ClassFile.takes_parts`: the bytes of every class file that is read are those
  of a verbatim file.
* `VerbatimFile.rewrites`: written again, its contents take no more bytes, and
  the same bytes exactly if every word of flags has only defined bits and every
  text has the form in which it is written.

The main statement, `ClassFile.write_eq_iff_isCanonical`, puts the two together.
-/

namespace ClassDelta

open Codec

/-! ## Class files as they stand -/

/-- A text and the bytes that spell it in a class file. -/
structure VerbatimText where
  bytes : Bytes
  text : String
  decode_bytes : ModifiedUtf8.decode bytes = some text
  length_le : bytes.length ≤ 65535

/-- An entry of a constant pool as it stands in a class file. -/
inductive VerbatimConstant
  | text (spelled : VerbatimText)
  | other (constant : Constant) (notText : constant.kind ≠ .utf8)

namespace VerbatimConstant

/-- The entry that is read. -/
def constant : VerbatimConstant → Constant
  | text spelled => .utf8 spelled.text
  | other constant _ => constant

/-- The entry without its tag. -/
def payload : VerbatimConstant → Bytes
  | text spelled => uint16.write (UInt16.ofNat spelled.bytes.length) ++ spelled.bytes
  | other constant _ => constant.payload

def write (entry : VerbatimConstant) : Bytes :=
  uint8.write entry.constant.kind.tag ++ entry.payload

/-- The text of the entry, if it is one. -/
def text? : VerbatimConstant → Option VerbatimText
  | text spelled => some spelled
  | other _ _ => none

end VerbatimConstant

/-- A field or a method as it stands in a class file. -/
structure VerbatimMember where
  /-- All bits of the flags, defined or not. -/
  word : UInt16
  name : PoolIndex
  descriptor : PoolIndex
  attributes : List RawAttribute

namespace VerbatimMember

def codec : Codec VerbatimMember :=
  (uint16.pair <| uint16.pair <| uint16.pair RawAttribute.codec.counted).via
    (fun member => (member.word, member.name, member.descriptor, member.attributes))
    (fun (word, name, descriptor, attributes) => ⟨word, name, descriptor, attributes⟩)

/-- The member that is read. -/
def member (scope : FlagScope) (source : VerbatimMember) : RawMember scope :=
  ⟨.ofBits source.word, source.name, source.descriptor, source.attributes⟩

end VerbatimMember

/-- The part of a class file behind its constant pool, as it stands there. -/
structure VerbatimBody where
  /-- All bits of the flags, defined or not. -/
  word : UInt16
  thisClass : PoolIndex
  superClass : PoolIndex
  interfaces : List PoolIndex
  fields : List VerbatimMember
  methods : List VerbatimMember
  attributes : List RawAttribute

namespace VerbatimBody

def codec : Codec VerbatimBody :=
  (uint16.pair <| uint16.pair <| uint16.pair <| uint16.counted.pair <|
      VerbatimMember.codec.counted.pair <| VerbatimMember.codec.counted.pair
      RawAttribute.codec.counted).via
    (fun body => (body.word, body.thisClass, body.superClass, body.interfaces, body.fields,
      body.methods, body.attributes))
    (fun (word, thisClass, superClass, interfaces, fields, methods, attributes) =>
      ⟨word, thisClass, superClass, interfaces, fields, methods, attributes⟩)

/-- The body that is read. -/
def body (source : VerbatimBody) : ClassBody where
  flags := .ofBits source.word
  thisClass := source.thisClass
  superClass := source.superClass
  interfaces := source.interfaces
  fields := source.fields.map (VerbatimMember.member .ofField)
  methods := source.methods.map (VerbatimMember.member .ofMethod)
  attributes := source.attributes

/-- Every word of flags, with what it belongs to. -/
def flagWords (source : VerbatimBody) : List (FlagScope × UInt16) :=
  (.ofClass, source.word) :: (source.fields.map fun field => (.ofField, field.word)) ++
    source.methods.map fun method => (.ofMethod, method.word)

end VerbatimBody

/-- A class file as it stands. -/
structure VerbatimFile extends VerbatimBody where
  version : Version
  entries : List VerbatimConstant

namespace VerbatimFile

/-- The pool that is read. -/
def pool (source : VerbatimFile) : Pool :=
  .ofConstants (source.entries.map VerbatimConstant.constant)

/-- The class file that is read. -/
def contents (source : VerbatimFile) : ClassFile :=
  { source.body with version := source.version, pool := source.pool }

/-- The bytes of the class file. -/
def write (source : VerbatimFile) : Bytes :=
  uint32.write ClassFile.magic ++ Version.codec.write source.version ++
    (uint16.write source.pool.slotCount ++ source.entries.flatMap VerbatimConstant.write) ++
    VerbatimBody.codec.write source.toVerbatimBody

/-- The texts of the constant pool. -/
def texts (source : VerbatimFile) : List VerbatimText :=
  source.entries.filterMap VerbatimConstant.text?

/-- Nothing in the bytes is lost when the class file is read. -/
structure IsCanonical (source : VerbatimFile) : Prop where
  /-- Every word of flags has only bits that are defined where it stands. -/
  defined : ∀ flags ∈ source.flagWords, flags.2 &&& flags.1.mask = flags.2
  /-- The bytes of every text are those it is written with. -/
  shortest : ∀ spelled ∈ source.texts, ModifiedUtf8.encode spelled.text = spelled.bytes

end VerbatimFile

/-! ## What is written again -/

namespace VerbatimConstant

/-- The bytes of the entry are those it is written with. -/
def IsCanonical (entry : VerbatimConstant) : Prop :=
  ∀ spelled ∈ entry.text?, ModifiedUtf8.encode spelled.text = spelled.bytes

/-- Behind the length, which takes two bytes whatever it is, stand the bytes of
the text. -/
theorem rewrites (entry : VerbatimConstant) :
    Rewrites entry.constant.write entry.write entry.IsCanonical := by
  have htag : Rewrites (uint8.write entry.constant.kind.tag)
      (uint8.write entry.constant.kind.tag) True := .of_eq rfl trivial
  refine (htag.append ?_).congr (and_iff_right trivial)
  cases entry with
  | text spelled =>
    have hcanonical : IsCanonical (.text spelled) ↔
        ModifiedUtf8.encode spelled.text = spelled.bytes := by
      simp [IsCanonical, text?]
    rw [hcanonical]
    refine ⟨?_, fun heq => (List.append_inj heq (length_write_uint16 _ _)).2, fun heq => ?_⟩
    · have hle := (ModifiedUtf8.rewrites_encode spelled.decode_bytes).length_le
      have hcount := length_write_uint16 (UInt16.ofNat (ModifiedUtf8.encode spelled.text).length)
        (UInt16.ofNat spelled.bytes.length)
      simp only [constant, Constant.payload, payload, List.length_append]
      omega
    · simp only [constant, Constant.payload, payload, heq]
  | other constant notText => exact .of_eq rfl (by simp [IsCanonical, text?])

end VerbatimConstant

theorem RawAttribute.writesBack_codec : codec.WritesBack := by
  refine writesBack_uint16.bind ?_
  rintro _ name rfl
  refine writesBack_uint32.bind ?_
  rintro _ length rfl
  have hlt := length.toNat_lt
  have hlarge := Reader.le_largestRequest (show length.toNat < 2 ^ 32 by omega)
  refine (Reader.takes_take hlarge).bind ?_
  rintro _ info ⟨rfl, hlength⟩
  refine Reader.takes_pure ?_
  simp only [codec, hlength, UInt32.ofNat_toNat, List.append_nil, List.append_assoc]

theorem VerbatimMember.normalises_codec (scope : FlagScope) :
    (RawMember.codec scope).Normalises codec (member scope)
      fun source => source.word &&& scope.mask = source.word := by
  have hattributes := RawAttribute.writesBack_codec.normalises.counted
  have hparts := (normalises_flags scope).pair (writesBack_uint16.normalises.pair
    (writesBack_uint16.normalises.pair hattributes))
  exact hparts.via (fun _ => rfl) (fun _ => by simp [member]) (fun _ => by simp [member])
    (by simp)

theorem VerbatimBody.forall_mem_flagWords (source : VerbatimBody)
    (property : FlagScope × UInt16 → Prop) :
    (∀ flags ∈ source.flagWords, property flags) ↔
      property (.ofClass, source.word) ∧
        (∀ field ∈ source.fields, property (.ofField, field.word)) ∧
        ∀ method ∈ source.methods, property (.ofMethod, method.word) := by
  simp [flagWords, or_imp, forall_and]

theorem VerbatimBody.normalises_codec :
    ClassBody.codec.Normalises codec body
      fun source => ∀ flags ∈ source.flagWords, flags.2 &&& flags.1.mask = flags.2 := by
  have hattributes := RawAttribute.writesBack_codec.normalises.counted
  have hparts := (normalises_flags .ofClass).pair (writesBack_uint16.normalises.pair
    (writesBack_uint16.normalises.pair (writesBack_uint16.normalises.counted.pair
      ((VerbatimMember.normalises_codec .ofField).counted.pair
        ((VerbatimMember.normalises_codec .ofMethod).counted.pair hattributes)))))
  exact hparts.via (fun _ => rfl) (fun _ => by simp [body]) (fun _ => by simp [body])
    fun source => by rw [forall_mem_flagWords]; simp

namespace VerbatimFile

theorem constants_pool (source : VerbatimFile) :
    source.pool.constants = source.entries.map VerbatimConstant.constant :=
  Pool.constants_ofConstants _

/-- The texts are canonical if the entries are. -/
theorem forall_isCanonical_iff (source : VerbatimFile) :
    (∀ entry ∈ source.entries, entry.IsCanonical) ↔
      ∀ spelled ∈ source.texts, ModifiedUtf8.encode spelled.text = spelled.bytes := by
  simp only [texts, List.mem_filterMap, VerbatimConstant.IsCanonical, Option.mem_def]
  constructor
  · rintro h spelled ⟨entry, hmem, htext⟩
    exact h entry hmem spelled htext
  · intro h entry hmem spelled htext
    exact h spelled ⟨entry, hmem, htext⟩

/-- Written again, the contents of a class file take no more bytes, and the same
bytes only if nothing was lost. -/
theorem rewrites (source : VerbatimFile) :
    Rewrites source.contents.write source.write source.IsCanonical := by
  have hsame (bytes : Bytes) : Rewrites bytes bytes True := .of_eq rfl trivial
  have hentries := Rewrites.flatMap source.entries fun entry _ => entry.rewrites
  have hbody := VerbatimBody.normalises_codec.rewrites source.toVerbatimBody
  have hpool : Rewrites source.pool.write
      (uint16.write source.pool.slotCount ++ source.entries.flatMap VerbatimConstant.write)
      (∀ entry ∈ source.entries, entry.IsCanonical) := by
    rw [Pool.write_eq, constants_pool, List.flatMap_map]
    exact ((hsame _).append hentries).congr (and_iff_right trivial)
  have hall := ((hsame (uint32.write ClassFile.magic ++
    Version.codec.write source.version)).append hpool).append hbody
  refine hall.congr ?_
  rw [true_and, forall_isCanonical_iff]
  exact ⟨fun h => ⟨h.2, h.1⟩, fun h => ⟨h.2, h.1⟩⟩

end VerbatimFile

/-! ## What was read -/

theorem ConstantKind.tag_of_ofTag? {tag : UInt8} {kind : ConstantKind}
    (h : ofTag? tag = some kind) : kind.tag = tag := by
  unfold ofTag? at h
  split at h <;> cases h <;> (rename_i htag; exact UInt8.toNat_inj.1 htag.symm)

theorem HandleKind.code_of_ofCode? {code : UInt8} {kind : HandleKind}
    (h : ofCode? code = some kind) : kind.code = code := by
  unfold ofCode? at h
  split at h <;> cases h <;> (rename_i hcode; exact UInt8.toNat_inj.1 hcode.symm)

namespace Constant

/-- The bytes behind the tag of an entry, and the entry that is read from them. -/
def Spells (kind : ConstantKind) (bytes : Bytes) (constant : Constant) : Prop :=
  ∃ entry : VerbatimConstant,
    entry.constant.kind = kind ∧ entry.payload = bytes ∧ entry.constant = constant

/-- Entries other than texts are written as they were read. -/
theorem spells_other {kind : ConstantKind} {bytes : Bytes} {constant : Constant}
    (hkind : constant.kind = kind) (hbytes : constant.payload = bytes) (hother : kind ≠ .utf8) :
    Spells kind bytes constant :=
  ⟨.other constant (hkind ▸ hother), hkind, hbytes, rfl⟩

theorem takes_fail {α : Type} {spells : Bytes → α → Prop} (index : PoolIndex)
    (defect : PoolDefect) : (fail index defect : Reader α).Takes spells :=
  Reader.takes_throw _

theorem takes_text (index : PoolIndex) : (readText index).Takes (Spells .utf8) := by
  refine writesBack_uint16.bind ?_
  rintro _ length rfl
  have hlt := length.toNat_lt
  have hlarge := Reader.le_largestRequest (show length.toNat < 2 ^ 32 by omega)
  refine (Reader.takes_take hlarge).bind ?_
  rintro _ bytes ⟨rfl, hlength⟩
  split
  · rename_i text hdecode
    refine Reader.takes_pure ⟨.text ⟨bytes, text, hdecode, by omega⟩, rfl, ?_, rfl⟩
    simp only [VerbatimConstant.payload, hlength, UInt16.ofNat_toNat, List.append_nil]
  · exact takes_fail _ _

theorem takes_handle (index : PoolIndex) : (readHandle index).Takes (Spells .methodHandle) := by
  refine writesBack_uint8.bind ?_
  rintro _ code rfl
  split
  · rename_i kind hkind
    refine writesBack_uint16.bind ?_
    rintro _ target rfl
    refine Reader.takes_pure ?_
    rw [List.append_nil, ← HandleKind.code_of_ofCode? hkind]
    exact spells_other rfl rfl (by decide)
  · exact takes_fail _ _

theorem takes_two {build : UInt16 → UInt16 → Constant} {kind : ConstantKind}
    (h : ∀ first second,
      Spells kind (uint16.write first ++ uint16.write second) (build first second)) :
    (readTwo build).Takes (Spells kind) := by
  refine writesBack_uint16.bind ?_
  rintro _ first rfl
  refine writesBack_uint16.bind ?_
  rintro _ second rfl
  refine Reader.takes_pure ?_
  rw [List.append_nil]
  exact h first second

theorem takes_payload (index : PoolIndex) (kind : ConstantKind) :
    (readPayload index kind).Takes (Spells kind) := by
  have hone {α : Type} {codec : Codec α} (hcodec : codec.WritesBack) {build : α → Constant}
      (h : ∀ value, Spells kind (codec.write value) (build value)) :
      (build <$> codec.read).Takes (Spells kind) := by
    refine hcodec.map ?_
    rintro _ value rfl
    exact h value
  cases kind with
  | utf8 => exact takes_text index
  | methodHandle => exact takes_handle index
  | integer => exact hone writesBack_int32 fun _ => spells_other rfl rfl (by decide)
  | float => exact hone writesBack_uint32 fun _ => spells_other rfl rfl (by decide)
  | long => exact hone writesBack_int64 fun _ => spells_other rfl rfl (by decide)
  | double => exact hone writesBack_uint64 fun _ => spells_other rfl rfl (by decide)
  | fieldRef | methodRef | interfaceMethodRef | nameAndType | dynamic | invokeDynamic =>
    exact takes_two fun _ _ => spells_other rfl rfl (by decide)
  | classRef | string | methodType | moduleRef | packageRef =>
    exact hone writesBack_uint16 fun _ => spells_other rfl rfl (by decide)

theorem takes_read (index : PoolIndex) :
    (read index).Takes fun bytes constant =>
      ∃ entry : VerbatimConstant, entry.write = bytes ∧ entry.constant = constant := by
  refine Reader.Takes.mapError (writesBack_uint8.bind ?_)
  rintro _ tag rfl
  split
  · rename_i kind hkind
    refine (takes_payload index kind).mono ?_
    rintro _ _ ⟨entry, rfl, rfl, rfl⟩
    refine ⟨entry, ?_, rfl⟩
    rw [VerbatimConstant.write, ConstantKind.tag_of_ofTag? hkind]
  · exact takes_fail _ _

end Constant

namespace Pool

/-- Entries have their bytes in a row and fill the slots that were free. -/
theorem takes_readEntries (free : Nat) (entries : OffsetVector Constant) :
    (readEntries free entries).Takes fun bytes result =>
      ∃ sources : List VerbatimConstant, sources.flatMap VerbatimConstant.write = bytes ∧
        (sources.map VerbatimConstant.constant).foldl OffsetVector.push entries = result ∧
        OffsetVector.totalWidth (sources.map VerbatimConstant.constant) = free := by
  induction free using Nat.strongRecOn generalizing entries with
  | ind free ih =>
    have hlater (source : VerbatimConstant) (rest : Nat) (hrest : rest < free)
        (hfree : free = source.constant.slots + rest) :
        (readEntries rest (entries.push source.constant)).Takes fun bytes result =>
          ∃ sources : List VerbatimConstant,
            sources.flatMap VerbatimConstant.write = source.write ++ bytes ∧
            (sources.map VerbatimConstant.constant).foldl OffsetVector.push entries = result ∧
            OffsetVector.totalWidth (sources.map VerbatimConstant.constant) = free := by
      refine (ih rest hrest (entries.push source.constant)).mono ?_
      rintro _ _ ⟨sources, rfl, rfl, rfl⟩
      exact ⟨source :: sources, List.flatMap_cons, rfl, hfree.symm⟩
    cases free with
    | zero => exact Reader.takes_pure ⟨[], rfl, rfl, rfl⟩
    | succ free =>
      rw [readEntries]
      refine (Constant.takes_read _).bind ?_
      rintro _ _ ⟨source, rfl, rfl⟩
      -- an entry of two slots does not fit in the last one
      split
      · rename_i htwo
        cases free with
        | zero => exact Constant.takes_fail _ _
        | succ free => exact hlater source free (by omega) (by omega)
      · rename_i hnotTwo
        have hslots := source.constant.slots_eq
        exact hlater source free (by omega) (by omega)

theorem takes_read :
    Pool.read.Takes fun bytes pool =>
      ∃ sources : List VerbatimConstant,
        uint16.write pool.slotCount ++ sources.flatMap VerbatimConstant.write = bytes ∧
        ofConstants (sources.map VerbatimConstant.constant) = pool := by
  refine (Reader.Takes.mapError writesBack_uint16).bind ?_
  rintro _ count rfl
  split
  · exact Constant.takes_fail _ _
  · rename_i hpositive
    refine (takes_readEntries _ _).bind ?_
    rintro _ _ ⟨sources, rfl, rfl, hwidth⟩
    have hcount := slotCount_of_filled hpositive hwidth
    simp only [foldl_push_empty]
    split
    · exact Constant.takes_fail _ _
    · refine Reader.takes_pure ⟨sources, ?_, rfl⟩
      rw [hcount, List.append_nil]

end Pool

namespace ClassFile

theorem takes_version (supported : VersionRange) :
    (readVersion supported).Takes fun bytes version =>
      uint32.write magic ++ Version.codec.write version = bytes := by
  refine writesBack_uint32.bind ?_
  rintro _ found rfl
  split
  · rename_i hfound
    subst hfound
    refine writesBack_version.bind ?_
    rintro _ version rfl
    split
    · exact Reader.takes_pure (by rw [List.append_nil])
    · exact Reader.takes_throw _
  · exact Reader.takes_throw _

/-- The bytes of a class file are those of a verbatim file. -/
theorem takes_parts (supported : VersionRange) :
    (readParts supported).Takes fun bytes file =>
      ∃ source : VerbatimFile, source.write = bytes ∧ source.contents = file := by
  have hpreamble : (readPreamble supported).Takes fun bytes parts =>
      ∃ sources : List VerbatimConstant, uint32.write magic ++ Version.codec.write parts.1 ++
          (uint16.write parts.2.slotCount ++ sources.flatMap VerbatimConstant.write) = bytes ∧
        Pool.ofConstants (sources.map VerbatimConstant.constant) = parts.2 := by
    refine (takes_version supported).bind ?_
    rintro _ version rfl
    refine Pool.takes_read.bind ?_
    rintro _ pool ⟨sources, rfl, hpool⟩
    exact Reader.takes_pure ⟨sources, by rw [List.append_nil], hpool⟩
  refine hpreamble.bind ?_
  rintro _ ⟨version, pool⟩ ⟨sources, rfl, rfl⟩
  refine VerbatimBody.normalises_codec.takes.bind ?_
  rintro _ _ ⟨source, rfl, rfl⟩
  refine Reader.takes_pure ⟨{ source with version, entries := sources }, ?_, rfl⟩
  rw [List.append_nil]
  rfl

/-- A class file that was read takes no more bytes when it is written again.  It
takes the same bytes exactly if in those it was read from every word of flags had
only defined bits and every text had the form it is written in. -/
theorem write_eq_iff_isCanonical {supported : VersionRange} {bytes : Bytes} {file : ClassFile}
    (h : parse supported bytes = .ok file) :
    file.write.length ≤ bytes.length ∧
      (∃ source : VerbatimFile, source.write = bytes ∧ source.contents = file) ∧
      ∀ source : VerbatimFile, source.write = bytes → source.contents = file →
        (file.write = bytes ↔ source.IsCanonical) := by
  obtain ⟨position, hparts⟩ := parse_eq_ok_iff.1 h
  obtain ⟨_, hbytes, source, rfl, rfl⟩ := takes_parts supported _ _ _ hparts
  have hwhole : bytes = source.write := hbytes.trans (List.append_nil _)
  subst hwhole
  refine ⟨source.rewrites.length_le, ⟨source, rfl, rfl⟩, fun other hbytes hcontents => ?_⟩
  rw [← hbytes, ← hcontents]
  exact other.rewrites.eq_iff

/-- A class with an undefined bit in its flags and a letter in two bytes. -/
def longFormSample : VerbatimFile where
  version := ⟨52, 0⟩
  entries := [.text ⟨[0xC1, 0x81], "A", by decide, by decide⟩,
    .other (.named .className 1) (by decide)]
  word := 0x0821
  thisClass := 2
  superClass := 0
  interfaces := []
  fields := []
  methods := [⟨0x0001, 1, 1, []⟩]
  attributes := [⟨1, [7]⟩]

theorem write_ne_longFormSample :
    parse .everyRelease longFormSample.write = .ok longFormSample.contents ∧
      longFormSample.contents.write.length ≤ longFormSample.write.length ∧
      longFormSample.contents.write ≠ longFormSample.write := by
  -- the two halves are evaluated one by one; both at once take too long
  have hpreamble : readPreamble .everyRelease (.start longFormSample.write) =
      .ok (longFormSample.version, longFormSample.pool)
        ⟨18, VerbatimBody.codec.write longFormSample.toVerbatimBody⟩ := by rfl
  have hbody : ClassBody.codec.read
        ⟨18, VerbatimBody.codec.write longFormSample.toVerbatimBody⟩ =
      .ok longFormSample.body ⟨47, []⟩ := by rfl
  have hparts : readParts .everyRelease (.start longFormSample.write) =
      .ok longFormSample.contents ⟨47, []⟩ :=
    (Stateful.bind_of_ok hpreamble _).trans (Stateful.bind_of_ok hbody _)
  have hparse : parse .everyRelease longFormSample.write = .ok longFormSample.contents :=
    parse_eq_ok_iff.2 ⟨47, hparts⟩
  obtain ⟨hlength, -, hiff⟩ := write_eq_iff_isCanonical hparse
  refine ⟨hparse, hlength, fun hsame => ?_⟩
  have hcanonical := (hiff _ rfl rfl).1 hsame
  -- the undefined bit alone keeps the file from being canonical
  exact absurd (hcanonical.defined (.ofClass, 0x0821) (by decide)) (by decide)

end ClassFile

end ClassDelta
