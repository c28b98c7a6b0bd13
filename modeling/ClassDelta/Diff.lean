import ClassDelta.Change

/-!
# Comparing two versions of a class

`ClassifiedClass.changes` lists what changed: first the class itself, then its
fields, then its methods.  Members are matched by name and descriptor, so a
member whose type changes is one removal and one addition.  Within one kind of
member come the removals in the order of the old class, and then the additions
and modifications in the order of the new one.

Unless synthetics are asked for, a change stays out when it concerns nothing
that the source code declares; a modification stays in when either side does.
-/

namespace ClassDelta

/-! ## Deltas -/

/-- Add a text to a strictly ascending list. -/
def insertAscending (text : String) : List String → List String
  | [] => [text]
  | first :: later =>
    if text < first then text :: first :: later
    else if text = first then first :: later
    else first :: insertAscending text later

/-- The set of texts in a list, in ascending order. -/
def ascending (texts : List String) : List String := texts.foldr insertAscending []

namespace SetDelta

/-- What two lists gained and lost as lists, in their own orders. -/
def between (old new : List String) : SetDelta where
  added := new.filter fun text => !old.contains text
  removed := old.filter fun text => !new.contains text

/-- What two lists gained and lost as sets, in ascending order. -/
def betweenSets (old new : List String) : SetDelta := between (ascending old) (ascending new)

/-- Nothing was gained or lost. -/
def isEmpty (delta : SetDelta) : Bool := delta.added.isEmpty && delta.removed.isEmpty

end SetDelta

namespace Delta

/-- A delta if the two values differ. -/
def ofValues {α : Type} [DecidableEq α] (build : Replaced α → Delta) (old new : α) : List Delta :=
  if old = new then [] else [build ⟨old, new⟩]

/-- A delta if the two lists differ as sets. -/
def ofSets (build : SetDelta → Delta) (old new : List String) : List Delta :=
  let delta := SetDelta.betweenSets old new
  if delta.isEmpty then [] else [build delta]

/-- A delta if the two sets of flags differ. -/
def ofFlags {scope : FlagScope} (old new : Flags scope) : List Delta :=
  if old = new then [] else [flags (.between old.names new.names)]

end Delta

namespace MemberKind

/-- The difference in what only members of the kind have. -/
def detailDeltas : (kind : MemberKind) → (old new : kind.Detail) → List Delta
  | field, old, new => Delta.ofValues .constantValue old new
  | method, old, new => Delta.ofSets .exceptions old new

end MemberKind

namespace Member

/-- The aspects in which two versions of a member differ. -/
def deltas {kind : MemberKind} (old new : Member kind) : List Delta :=
  Delta.ofFlags old.flags new.flags ++
    Delta.ofValues .signature old.signature new.signature ++
    kind.detailDeltas old.detail new.detail ++
    Delta.ofValues .deprecated old.deprecated new.deprecated

end Member

namespace ClassHeader

/-- The aspects in which two versions of a class differ, members apart. -/
def deltas (old new : ClassHeader) : List Delta :=
  Delta.ofFlags old.flags new.flags ++
    Delta.ofValues .superClass old.superClass new.superClass ++
    Delta.ofSets .interfaces old.interfaces new.interfaces ++
    Delta.ofValues .signature old.signature new.signature ++
    Delta.ofValues .version old.version new.version ++
    Delta.ofValues .outerClass old.outerClass new.outerClass ++
    Delta.ofValues .deprecated old.deprecated new.deprecated

end ClassHeader

/-! ## Changes -/

/-- Which changes are listed: all of them, or those to something that the source
code declares. -/
def Classification.isListed (includeSynthetics : Bool) (classification : Classification) : Bool :=
  includeSynthetics || classification.isSourceDeclared

/-- The last member with a key. -/
def findMember {kind : MemberKind} (members : List (Member kind)) (key : String × String) :
    Option (Member kind) :=
  members.reverse.find? fun member => member.key = key

namespace ClassifiedClass

/-- The change to the class itself, if there is one. -/
def headerChanges (includeSynthetics : Bool) (old new : ClassifiedClass) : List Change :=
  let deltas := old.info.header.deltas new.info.header
  let oldClass := old.classifications.ofClass
  let newClass := new.classifications.ofClass
  if deltas.isEmpty then []
  else if oldClass.isListed includeSynthetics || newClass.isListed includeSynthetics then
    [.modified (.ofClass old.info.header) (.ofClass new.info.header) deltas newClass]
  else []

/-- The removal of an old member, unless it is still there. -/
def removal? {kind : MemberKind} (includeSynthetics : Bool) (old : ClassifiedClass)
    (newMembers : List (Member kind)) (member : Member kind) : Option Change :=
  let classification := old.classify member
  if (findMember newMembers member.key).isSome then none
  else if classification.isListed includeSynthetics then
    some (.removed (.member member) classification)
  else none

/-- The addition of a new member, or its modification if it was there before. -/
def arrival? {kind : MemberKind} (includeSynthetics : Bool) (old new : ClassifiedClass)
    (oldMembers : List (Member kind)) (member : Member kind) : Option Change :=
  let classification := new.classify member
  match findMember oldMembers member.key with
  | none =>
    if classification.isListed includeSynthetics then
      some (.added (.member member) classification)
    else none
  | some before =>
    let deltas := before.deltas member
    if deltas.isEmpty then none
    else if classification.isListed includeSynthetics ||
        (old.classify before).isListed includeSynthetics then
      some (.modified (.member before) (.member member) deltas classification)
    else none

/-- The changes to the members of one kind. -/
def memberChanges {kind : MemberKind} (includeSynthetics : Bool) (old new : ClassifiedClass)
    (oldMembers newMembers : List (Member kind)) : List Change :=
  oldMembers.filterMap (removal? includeSynthetics old newMembers) ++
    newMembers.filterMap (arrival? includeSynthetics old new oldMembers)

/-- Everything that changed between two versions of a class. -/
def changes (includeSynthetics : Bool) (old new : ClassifiedClass) : List Change :=
  headerChanges includeSynthetics old new ++
    memberChanges includeSynthetics old new old.info.fields new.info.fields ++
    memberChanges includeSynthetics old new old.info.methods new.info.methods

/-- The change that a class is new.  Its members are not listed. -/
def additionChanges (includeSynthetics : Bool) (new : ClassifiedClass) : List Change :=
  let classification := new.classifications.ofClass
  if classification.isListed includeSynthetics then
    [.added (.ofClass new.info.header) classification]
  else []

/-- The change that a class is gone.  Its members are not listed. -/
def removalChanges (includeSynthetics : Bool) (old : ClassifiedClass) : List Change :=
  let classification := old.classifications.ofClass
  if classification.isListed includeSynthetics then
    [.removed (.ofClass old.info.header) classification]
  else []

end ClassifiedClass

end ClassDelta
