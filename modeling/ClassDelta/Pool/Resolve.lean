import ClassDelta.Pool.Basic
import ClassDelta.Text.Decimal
import ClassDelta.Text.Quoted

/-!
# Resolving references into a pool

A reference is resolved by looking up its entry, checking that the entry is of
the kind wanted there, and following the references of the entry in turn.  A
failure names the index at which it happened and the kind found there.

`Pool.literal` is the one look-up that makes text out of a value: the constant
that initialises a field, as a literal.
-/

namespace ClassDelta.Pool

/-- The result of following a reference. -/
abbrev Resolved := Except ParseError

/-- The entry at `index` is not what was wanted there. -/
def unresolved {α : Type} (pool : Pool) (index : PoolIndex) (wanted : Wanted) : Resolved α :=
  .error (.unresolved index wanted ((pool.get? index).map Constant.kind))

/-- A text. -/
def text (pool : Pool) (index : PoolIndex) : Resolved String :=
  match pool.get? index with
  | some (.utf8 text) => .ok text
  | _ => pool.unresolved index .text

/-- The name of a class. -/
def className (pool : Pool) (index : PoolIndex) : Resolved String :=
  match pool.get? index with
  | some (.named .className name) => pool.text name
  | _ => pool.unresolved index .className

/-- A name together with a type descriptor. -/
def nameAndType (pool : Pool) (index : PoolIndex) : Resolved (String × String) :=
  match pool.get? index with
  | some (.nameAndType name descriptor) => do
    let name ← pool.text name
    let descriptor ← pool.text descriptor
    return (name, descriptor)
  | _ => pool.unresolved index .nameAndType

/-- A reference where index 0 stands for nothing. -/
def optional {α : Type} (follow : PoolIndex → Resolved α) (index : PoolIndex) :
    Resolved (Option α) :=
  if index = 0 then .ok none else some <$> follow index

/-- A text, or nothing for index 0. -/
def text? (pool : Pool) : PoolIndex → Resolved (Option String) := optional pool.text

/-- The name of a class, or nothing for index 0. -/
def className? (pool : Pool) : PoolIndex → Resolved (Option String) := optional pool.className

/-! ## Literals -/

/-- Floating-point literals are positional from a ten-thousandth up to `10 ^ 16`. -/
def literalLayout : DecimalLayout where
  positionalFrom := -4
  scientificFrom := 16
  infinity := "inf"
  notANumber := "NaN"

/-- The literal of a constant that can initialise a field.  Longs, floats and
doubles carry the letter of their type, and strings are quoted. -/
def literal (pool : Pool) (index : PoolIndex) : Resolved String :=
  match pool.get? index with
  | some (.integer value) => .ok (toString value.toInt)
  | some (.long value) => .ok (toString value.toInt ++ "L")
  | some (.float bits) => .ok (literalLayout.wordText .single bits.toNat ++ "f")
  | some (.double bits) => .ok (literalLayout.wordText .double bits.toNat ++ "d")
  | some (.named .string value) => Quoted.quote <$> pool.text value
  | _ => pool.unresolved index .literal

end ClassDelta.Pool
