import ClassDelta.Comparison.Basic
import ClassDelta.Proofs.Pool.RoundTrip
import Mathlib.Data.List.Forall2

/-!
# Attributes that make no difference

Of the attributes of a class, a field or a method only a few say something about
its interface, and only the first one of each name is looked at.  Everything
else, the bodies of methods included, can come and go.

* `RawAttribute.firstInfo?` is all that a format sees of a list of attributes
  (`AttributeFormat.find_eq_firstInfo?`).
* `RawAttribute.SameFirsts` relates two lists in which it is the same for every
  name that counts.  Lists are so related that differ in an attribute of another
  name, in a repeated one, or in the order of two names.
* `ClassFile.Resembles` relates class files that differ in such lists only.  They
  describe the same class, or fail in the same way, and so they can stand for
  each other in every comparison: `ClassInfo.ofClassFile_eq_of_resembles`.
-/

namespace ClassDelta

/-! ## The first attribute of a name -/

namespace RawAttribute

/-- The name of the attribute, if its index leads to a text. -/
def name? (pool : Pool) (raw : RawAttribute) : Option String :=
  match pool.get? raw.name with
  | some (.utf8 text) => some text
  | _ => none

/-- The bytes of the first attribute with a name. -/
def firstInfo? (pool : Pool) (name : String) (attributes : List RawAttribute) : Option Bytes :=
  (attributes.find? fun raw => raw.name? pool = some name).map info

/-- The names of all attributes can be resolved. -/
def HaveNames (pool : Pool) (attributes : List RawAttribute) : Prop :=
  ∀ raw ∈ attributes, (raw.name? pool).isSome = true

instance (pool : Pool) (attributes : List RawAttribute) : Decidable (HaveNames pool attributes) :=
  inferInstanceAs (Decidable (∀ raw ∈ attributes, (raw.name? pool).isSome = true))

/-- Of every name in `names`, the first attributes in the two lists have the same
bytes, or there is none in either list. -/
structure SameFirsts (pool : Pool) (names : List String) (left right : List RawAttribute) :
    Prop where
  leftNamed : HaveNames pool left
  rightNamed : HaveNames pool right
  same : ∀ name ∈ names, firstInfo? pool name left = firstInfo? pool name right

variable {pool : Pool} {names : List String} {raw : RawAttribute}

theorem text_of_name? {name : String} (h : raw.name? pool = some name) :
    pool.text raw.name = .ok name := by
  unfold name? at h
  split at h
  · rename_i text hentry
    cases h
    rw [Pool.text, hentry]
  · cases h

theorem firstInfo?_cons (name : String) (first : RawAttribute) (later : List RawAttribute) :
    firstInfo? pool name (first :: later) =
      if first.name? pool = some name then some first.info else firstInfo? pool name later := by
  unfold firstInfo?
  rw [List.find?_cons]
  by_cases hname : first.name? pool = some name
  · simp [hname]
  · simp [hname]

theorem firstInfo?_append (name : String) (before after : List RawAttribute) :
    firstInfo? pool name (before ++ after) =
      (firstInfo? pool name before).or (firstInfo? pool name after) := by
  unfold firstInfo?
  rw [List.find?_append, Option.map_or]

theorem isSome_firstInfo?_iff (name : String) (attributes : List RawAttribute) :
    (firstInfo? pool name attributes).isSome = true ↔
      some name ∈ attributes.map (name? pool) := by
  simp [firstInfo?]

theorem haveNames_append_iff {before after : List RawAttribute} :
    HaveNames pool (before ++ after) ↔ HaveNames pool before ∧ HaveNames pool after :=
  List.forall_mem_append

theorem haveNames_cons_iff {first : RawAttribute} {later : List RawAttribute} :
    HaveNames pool (first :: later) ↔
      (first.name? pool).isSome = true ∧ HaveNames pool later :=
  List.forall_mem_cons

/-! ## What makes no difference -/

namespace SameFirsts

variable {before after : List RawAttribute}

theorem trans {left middle right : List RawAttribute} (h : SameFirsts pool names left middle)
    (h' : SameFirsts pool names middle right) : SameFirsts pool names left right :=
  ⟨h.leftNamed, h'.rightNamed, fun name hmem => (h.same name hmem).trans (h'.same name hmem)⟩

/-- An attribute whose name does not count. -/
theorem insert_other (h : HaveNames pool (before ++ raw :: after))
    (hother : ∀ name ∈ names, raw.name? pool ≠ some name) :
    SameFirsts pool names (before ++ raw :: after) (before ++ after) where
  leftNamed := h
  rightNamed := by
    rw [haveNames_append_iff, haveNames_cons_iff] at h
    exact haveNames_append_iff.2 ⟨h.1, h.2.2⟩
  same := by
    intro name hmem
    rw [firstInfo?_append, firstInfo?_append, firstInfo?_cons, if_neg (hother name hmem)]

/-- An attribute with the name of one in front of it. -/
theorem insert_repeated (h : HaveNames pool (before ++ raw :: after))
    (hrepeated : raw.name? pool ∈ before.map (name? pool)) :
    SameFirsts pool names (before ++ raw :: after) (before ++ after) where
  leftNamed := h
  rightNamed := by
    rw [haveNames_append_iff, haveNames_cons_iff] at h
    exact haveNames_append_iff.2 ⟨h.1, h.2.2⟩
  same := by
    intro name _
    rw [firstInfo?_append, firstInfo?_append, firstInfo?_cons]
    by_cases hname : raw.name? pool = some name
    · rw [hname] at hrepeated
      obtain ⟨info, hinfo⟩ :=
        Option.isSome_iff_exists.1 ((isSome_firstInfo?_iff name before).2 hrepeated)
      rw [hinfo, Option.some_or, Option.some_or]
    · rw [if_neg hname]

/-- The order of two attributes with different names. -/
theorem exchange {other : RawAttribute}
    (h : HaveNames pool (before ++ raw :: other :: after))
    (hdifferent : raw.name? pool ≠ other.name? pool) :
    SameFirsts pool names (before ++ raw :: other :: after)
      (before ++ other :: raw :: after) where
  leftNamed := h
  rightNamed := by
    rw [haveNames_append_iff, haveNames_cons_iff, haveNames_cons_iff] at h ⊢
    exact ⟨h.1, h.2.2.1, h.2.1, h.2.2.2⟩
  same := by
    intro name _
    rw [firstInfo?_append, firstInfo?_append, firstInfo?_cons, firstInfo?_cons, firstInfo?_cons,
      firstInfo?_cons]
    by_cases hname : raw.name? pool = some name
    · have hother : other.name? pool ≠ some name := fun heq => hdifferent (hname.trans heq.symm)
      rw [if_pos hname, if_neg hother, if_pos hname]
    · rw [if_neg hname, if_neg hname]

end SameFirsts

end RawAttribute

/-! ## What a format sees -/

open RawAttribute (HaveNames SameFirsts firstInfo?)

namespace AttributeFormat

variable {α : Type} (format : AttributeFormat α) {pool : Pool} {names : List String}
  {left right : List RawAttribute}

/-- Where all names can be resolved, a format decodes the first attribute of its
name and looks at nothing else. -/
theorem find_eq_firstInfo? {attributes : List RawAttribute} (h : HaveNames pool attributes) :
    format.find pool attributes =
      match firstInfo? pool format.name attributes with
      | some info => some <$> format.decode info
      | none => .ok none := by
  induction attributes with
  | nil => rfl
  | cons first later ih =>
    obtain ⟨hfirst, hlater⟩ := RawAttribute.haveNames_cons_iff.1 h
    obtain ⟨name, hname⟩ := Option.isSome_iff_exists.1 hfirst
    rw [find, RawAttribute.text_of_name? hname, RawAttribute.firstInfo?_cons, hname]
    show (if name = format.name then some <$> format.decode first.info else find format pool later)
      = _
    by_cases hsame : name = format.name
    · rw [if_pos hsame, if_pos (congrArg some hsame)]
    · have hother : ¬ some name = some format.name := fun heq => hsame (Option.some.inj heq)
      rw [if_neg hsame, if_neg hother, ih hlater]

theorem find_congr (h : SameFirsts pool names left right) (hname : format.name ∈ names) :
    format.find pool left = format.find pool right := by
  rw [format.find_eq_firstInfo? h.leftNamed, format.find_eq_firstInfo? h.rightNamed, h.same _ hname]

theorem isPresent_congr (h : SameFirsts pool names left right) (hname : format.name ∈ names) :
    format.isPresent pool left = format.isPresent pool right := by
  rw [isPresent, format.find_congr h hname, isPresent]

end AttributeFormat

theorem resolveSignature_congr {pool : Pool} {names : List String}
    {left right : List RawAttribute} (h : SameFirsts pool names left right)
    (hname : AttributeFormat.signature.name ∈ names) :
    resolveSignature pool left = resolveSignature pool right := by
  rw [resolveSignature, AttributeFormat.signature.find_congr h hname, resolveSignature]

/-! ## Members -/

namespace MemberKind

/-- The names of the attributes that say something about a member. -/
def recognised : MemberKind → List String
  | field => ["ConstantValue", "Signature", "Synthetic", "Deprecated"]
  | method => ["Exceptions", "Signature", "Synthetic", "Deprecated"]

theorem resolveDetail_congr (kind : MemberKind) {pool : Pool} {left right : List RawAttribute}
    (h : SameFirsts pool kind.recognised left right) :
    kind.resolveDetail pool left = kind.resolveDetail pool right := by
  cases kind with
  | field =>
    simp only [resolveDetail, resolveConstant,
      AttributeFormat.constantValue.find_congr h (List.mem_cons_self ..)]
  | method =>
    simp only [resolveDetail, resolveExceptions,
      AttributeFormat.exceptions.find_congr h (List.mem_cons_self ..)]

theorem mem_recognised (kind : MemberKind) :
    AttributeFormat.signature.name ∈ kind.recognised ∧
      AttributeFormat.synthetic.name ∈ kind.recognised ∧
      AttributeFormat.deprecated.name ∈ kind.recognised := by
  cases kind <;> decide

end MemberKind

/-- Two members of class files that differ at most in attributes that make no
difference. -/
structure RawMember.Resembles (kind : MemberKind) (pool : Pool)
    (left right : RawMember kind.scope) : Prop where
  flags : left.flags = right.flags
  name : left.name = right.name
  descriptor : left.descriptor = right.descriptor
  attributes : SameFirsts pool kind.recognised left.attributes right.attributes

/-- Lists that look the same to `f` give the same results, up to the same error. -/
theorem mapM_congr_of_forall₂ {m : Type → Type} [Monad m] [LawfulMonad m] {α β : Type}
    {f : α → m β} {left right : List α}
    (h : List.Forall₂ (fun first second => f first = f second) left right) :
    left.mapM f = right.mapM f := by
  induction h with
  | nil => rfl
  | cons hfirst _ ih => rw [List.mapM_cons, List.mapM_cons, hfirst, ih]

namespace Member

variable (kind : MemberKind) {pool : Pool} (owner : String)

theorem ofRaw_congr {left right : RawMember kind.scope}
    (h : RawMember.Resembles kind pool left right) :
    ofRaw owner pool left = ofRaw owner pool right := by
  obtain ⟨hsignature, hsynthetic, hdeprecated⟩ := kind.mem_recognised
  rw [ofRaw, ofRaw, h.name, h.descriptor, h.flags, kind.resolveDetail_congr h.attributes,
    resolveSignature_congr h.attributes hsignature,
    AttributeFormat.synthetic.isPresent_congr h.attributes hsynthetic,
    AttributeFormat.deprecated.isPresent_congr h.attributes hdeprecated]

theorem resolveAll_congr {left right : List (RawMember kind.scope)}
    (h : List.Forall₂ (RawMember.Resembles kind pool) left right) :
    resolveAll kind owner pool left = resolveAll kind owner pool right := by
  rw [resolveAll, mapM_congr_of_forall₂ (h.imp fun _ _ hone => ofRaw_congr kind owner hone), resolveAll]

end Member

/-! ## Classes -/

/-- The names of the attributes that say something about a class. -/
def ClassInfo.recognised : List String :=
  ["InnerClasses", "EnclosingMethod", "Signature", "Synthetic", "Deprecated"]

theorem resolveOuterClass_congr {pool : Pool} {left right : List RawAttribute}
    (h : SameFirsts pool ClassInfo.recognised left right) (name : String) :
    resolveOuterClass pool name left = resolveOuterClass pool name right := by
  have hinner := AttributeFormat.innerClasses.find_congr h (by decide)
  have henclosing := AttributeFormat.enclosingMethod.find_congr h (by decide)
  simp only [resolveOuterClass, resolveDeclaringClass, resolveEnclosingClass, hinner, henclosing]

/-- Two class files that differ at most in attributes that make no difference. -/
structure ClassFile.Resembles (left right : ClassFile) : Prop where
  version : left.version = right.version
  pool : left.pool = right.pool
  flags : left.flags = right.flags
  thisClass : left.thisClass = right.thisClass
  superClass : left.superClass = right.superClass
  interfaces : left.interfaces = right.interfaces
  fields : List.Forall₂ (RawMember.Resembles .field left.pool) left.fields right.fields
  methods : List.Forall₂ (RawMember.Resembles .method left.pool) left.methods right.methods
  attributes : SameFirsts left.pool ClassInfo.recognised left.attributes right.attributes

namespace ClassInfo

theorem ofClassFile_congr {left right : ClassFile} (h : left.Resembles right) :
    ofClassFile left = ofClassFile right := by
  have hfields (owner : String) := Member.resolveAll_congr .field owner h.fields
  have hmethods (owner : String) := Member.resolveAll_congr .method owner h.methods
  have houter := resolveOuterClass_congr h.attributes
  have hsignature := resolveSignature_congr h.attributes (by decide)
  have hsynthetic := AttributeFormat.synthetic.isPresent_congr h.attributes (by decide)
  have hdeprecated := AttributeFormat.deprecated.isPresent_congr h.attributes (by decide)
  simp only [ofClassFile, hfields, hmethods, houter, hsignature, hsynthetic, hdeprecated,
    ← h.version, ← h.pool, ← h.flags, ← h.thisClass, ← h.superClass, ← h.interfaces]

end ClassInfo

/-! ## Comparisons -/

namespace Job

/-- A comparison takes from the bytes of a class what they describe. -/
theorem outcome_congr {settings : Settings} {left right : Bytes}
    (h : ClassInfo.parse settings.supported left = ClassInfo.parse settings.supported right)
    (name : String) (other : Option Bytes) :
    outcome settings ⟨name, some left, other⟩ = outcome settings ⟨name, some right, other⟩ ∧
      outcome settings ⟨name, other, some left⟩ = outcome settings ⟨name, other, some right⟩ := by
  have hside (side : Side) : parseSide settings.supported side left =
      parseSide settings.supported side right := by
    rw [parseSide, h, parseSide]
  cases other with
  | none => simp only [outcome, changes, hside, and_self]
  | some bytes => simp only [outcome, changes, hside, and_self]

end Job

namespace ClassInfo

theorem parse_of_ok {supported : VersionRange} {bytes : Bytes} {file : ClassFile}
    (h : ClassFile.parse supported bytes = .ok file) :
    parse supported bytes = ofClassFile file := by
  rw [parse, h]
  rfl

/-- Class files that resemble each other describe the same class or fail with the
same error, and so do all comparisons that either of them is a side of. -/
theorem ofClassFile_eq_of_resembles {left right : ClassFile} (h : left.Resembles right) :
    ofClassFile left = ofClassFile right ∧
      ∀ (settings : Settings) (leftBytes rightBytes : Bytes),
        ClassFile.parse settings.supported leftBytes = .ok left →
        ClassFile.parse settings.supported rightBytes = .ok right →
        ∀ (name : String) (other : Option Bytes),
          Job.outcome settings ⟨name, some leftBytes, other⟩ =
              Job.outcome settings ⟨name, some rightBytes, other⟩ ∧
            Job.outcome settings ⟨name, other, some leftBytes⟩ =
              Job.outcome settings ⟨name, other, some rightBytes⟩ := by
  have hsame := ofClassFile_congr h
  refine ⟨hsame, fun settings leftBytes rightBytes hleft hright => ?_⟩
  have hparse : parse settings.supported leftBytes = parse settings.supported rightBytes := by
    rw [parse_of_ok hleft, parse_of_ok hright, hsame]
  exact Job.outcome_congr hparse

/-- A class with one method, which has these attributes. -/
def oneMethodFile (attributes : List RawAttribute) : ClassFile where
  version := ⟨52, 0⟩
  pool := .ofConstants
    [.utf8 "A", .named .className 1, .utf8 "m", .utf8 "()V", .utf8 "Code", .utf8 "Signature",
      .utf8 "Deprecated"]
  flags := .ofBits 0x0021
  thisClass := 2
  superClass := 0
  interfaces := []
  fields := []
  methods := [⟨.ofBits 0x0001, 3, 4, attributes⟩]
  attributes := []

/-- A body that goes, a second signature that goes and is too short to be read,
and a signature that changes places with a mark. -/
theorem ofClassFile_eq_of_resembles_oneMethod :
    let left := oneMethodFile [⟨5, [0xB1]⟩, ⟨6, [0, 4]⟩, ⟨6, [0]⟩, ⟨7, []⟩]
    let right := oneMethodFile [⟨7, []⟩, ⟨6, [0, 4]⟩]
    left.Resembles right ∧ ofClassFile left = ofClassFile right := by
  intro left right
  let body : RawAttribute := ⟨5, [0xB1]⟩
  let signature : RawAttribute := ⟨6, [0, 4]⟩
  let unreadable : RawAttribute := ⟨6, [0]⟩
  let mark : RawAttribute := ⟨7, []⟩
  have hbody : SameFirsts left.pool MemberKind.method.recognised
      ([] ++ body :: [signature, unreadable, mark]) ([] ++ [signature, unreadable, mark]) :=
    .insert_other (by decide) (by decide)
  have hrepeated : SameFirsts left.pool MemberKind.method.recognised
      ([signature] ++ unreadable :: [mark]) ([signature] ++ [mark]) :=
    .insert_repeated (by decide) (by decide)
  have horder : SameFirsts left.pool MemberKind.method.recognised
      ([] ++ signature :: mark :: []) ([] ++ mark :: signature :: []) :=
    .exchange (by decide) (by decide)
  have hmethod : RawMember.Resembles .method left.pool
      ⟨.ofBits 0x0001, 3, 4, [body, signature, unreadable, mark]⟩
      ⟨.ofBits 0x0001, 3, 4, [mark, signature]⟩ :=
    ⟨rfl, rfl, rfl, hbody.trans (hrepeated.trans horder)⟩
  have hresembles : left.Resembles right :=
    ⟨rfl, rfl, rfl, rfl, rfl, rfl, .nil, .cons hmethod .nil, by decide, by decide, by decide⟩
  exact ⟨hresembles, (ofClassFile_eq_of_resembles hresembles).1⟩

/-- What is left of them are the signature and the mark. -/
example : (ofClassFile (oneMethodFile [⟨7, []⟩, ⟨6, [0, 4]⟩])).map (fun info =>
    info.methods.map fun method => (method.signature, method.deprecated)) =
      .ok [(some "()V", true)] := by
  rfl

end ClassInfo

end ClassDelta
