import ClassDelta.Pool.Resolve
import ClassDelta.Proofs.Pool.RoundTrip
import ClassDelta.Proofs.Text.Decimal
import ClassDelta.Proofs.Text.Quoted

/-!
# Literals are told apart

A field is initialised by an integer, a floating-point number or a text
(`FieldConstant`), and a change of it is noticed by its literal.  The last
character of a literal says of which type it is, and within a type the literal
says which value it is.  Literals are therefore the same exactly when the
values are (`Pool.literal_eq_literal_iff`).
-/

namespace ClassDelta

/-- The value of a constant that initialises a field. -/
inductive FieldConstant
  | integer (value : Int32)
  | long (value : Int64)
  | float (bits : UInt32)
  | double (bits : UInt64)
  | string (text : String)
deriving DecidableEq

namespace FieldConstant

/-- Two constants of one type with the same value.  Floating-point values are
the same when their bits are, and all that are no number are alike. -/
def SameValue : FieldConstant → FieldConstant → Prop
  | integer value, integer value' => value = value'
  | long value, long value' => value = value'
  | float bits, float bits' =>
    bits = bits' ∨
      BinaryFormat.single.IsNotANumber bits.toNat ∧ BinaryFormat.single.IsNotANumber bits'.toNat
  | double bits, double bits' =>
    bits = bits' ∨
      BinaryFormat.double.IsNotANumber bits.toNat ∧ BinaryFormat.double.IsNotANumber bits'.toNat
  | string text, string text' => text = text'
  | _, _ => False

/-- The literal of the constant. -/
def literal : FieldConstant → String
  | integer value => toString value.toInt
  | long value => toString value.toInt ++ "L"
  | float bits => Pool.literalLayout.wordText .single bits.toNat ++ "f"
  | double bits => Pool.literalLayout.wordText .double bits.toNat ++ "d"
  | string text => Quoted.quote text

/-! ## Types -/

/-- What the literals of a type end with, unless it is a digit. -/
def mark? : FieldConstant → Option Char
  | integer _ => none
  | long _ => some 'L'
  | float _ => some 'f'
  | double _ => some 'd'
  | string _ => some '"'

/-- The last character, unless it is a digit. -/
def lastMark? (text : String) : Option Char := text.toList.getLast?.filter (! ·.isDigit)

theorem lastMark?_toString (number : Int) : lastMark? (toString number) = none := by
  have hne : Nat.toDigits 10 number.natAbs ≠ [] := Nat.toDigits_ne_nil
  have hlast := isDigits_toDigits number.natAbs _ (List.getLast_mem hne)
  unfold lastMark?
  rw [toList_toString, List.getLast?_append_of_ne_nil _ hne, List.getLast?_eq_some_getLast hne]
  simp [hlast]

theorem lastMark?_append {mark : Char} (text suffix : String) (hsuffix : suffix.toList = [mark])
    (hmark : mark.isDigit = false) : lastMark? (text ++ suffix) = some mark := by
  simp [lastMark?, hsuffix, hmark]

theorem lastMark?_literal (constant : FieldConstant) :
    lastMark? constant.literal = constant.mark? := by
  cases constant with
  | integer value => exact lastMark?_toString value.toInt
  | long value => exact lastMark?_append _ "L" (by decide) rfl
  | float bits => exact lastMark?_append _ "f" (by decide) rfl
  | double bits => exact lastMark?_append _ "d" (by decide) rfl
  | string text => exact lastMark?_append _ "\"" (by decide) rfl

/-! ## Values -/

theorem namesApart_literalLayout : Pool.literalLayout.NamesApart :=
  ⟨by decide, by decide, by decide⟩

theorem toString_inj {number number' : Int} :
    toString number = toString number' ↔ number = number' := by
  refine ⟨fun h => ?_, congrArg toString⟩
  rw [← readInt_toString number, h, readInt_toString]

theorem wordText_eq_iff (format : BinaryFormat) {word word' : Nat} (hword : word < 2 ^ format.width)
    (hword' : word' < 2 ^ format.width) :
    Pool.literalLayout.wordText format word = Pool.literalLayout.wordText format word' ↔
      word = word' ∨ format.IsNotANumber word ∧ format.IsNotANumber word' :=
  DecimalLayout.wordText_eq_iff namesApart_literalLayout hword hword'

/-- The literals of one type are the same when the values are. -/
theorem literal_inj (constant constant' : FieldConstant) :
    constant.literal = constant'.literal ↔ constant.SameValue constant' := by
  have hlast : constant.literal = constant'.literal → constant.mark? = constant'.mark? := by
    intro heq
    rw [← lastMark?_literal, heq, lastMark?_literal]
  cases constant <;> cases constant'
  case integer.integer value value' =>
    exact toString_inj.trans Int32.toInt_inj
  case long.long value value' =>
    exact (String.append_left_inj "L").trans (toString_inj.trans Int64.toInt_inj)
  case float.float bits bits' =>
    have hwords := wordText_eq_iff .single bits.toNat_lt bits'.toNat_lt
    rw [UInt32.toNat_inj] at hwords
    exact (String.append_left_inj "f").trans hwords
  case double.double bits bits' =>
    have hwords := wordText_eq_iff .double bits.toNat_lt bits'.toNat_lt
    rw [UInt64.toNat_inj] at hwords
    exact (String.append_left_inj "d").trans hwords
  case string.string text text' => exact Quoted.quote_inj
  -- Constants of two types end with two marks.
  all_goals exact iff_of_false (fun heq => absurd (hlast heq) (by simp [mark?])) id

end FieldConstant

/-! ## Literals in pools -/

namespace Pool

/-- The value at an index that can initialise a field. -/
def fieldConstant? (pool : Pool) (index : PoolIndex) : Option FieldConstant :=
  match pool.get? index with
  | some (.integer value) => some (.integer value)
  | some (.long value) => some (.long value)
  | some (.float bits) => some (.float bits)
  | some (.double bits) => some (.double bits)
  | some (.named .string place) =>
    match pool.get? place with
    | some (.utf8 text) => some (.string text)
    | _ => none
  | _ => none

/-- Only a value that can initialise a field has a literal. -/
theorem literal_eq_ok {pool : Pool} {index : PoolIndex} {shown : String}
    (h : pool.literal index = .ok shown) :
    ∃ constant, pool.fieldConstant? index = some constant ∧ constant.literal = shown := by
  unfold literal at h
  split at h
  · rename_i value hfound
    exact ⟨.integer value, by simp only [fieldConstant?, hfound], Except.ok.inj h⟩
  · rename_i value hfound
    exact ⟨.long value, by simp only [fieldConstant?, hfound], Except.ok.inj h⟩
  · rename_i bits hfound
    exact ⟨.float bits, by simp only [fieldConstant?, hfound], Except.ok.inj h⟩
  · rename_i bits hfound
    exact ⟨.double bits, by simp only [fieldConstant?, hfound], Except.ok.inj h⟩
  · rename_i place hfound
    unfold text at h
    split at h
    · rename_i text htext
      exact ⟨.string text, by simp only [fieldConstant?, hfound, htext], Except.ok.inj h⟩
    · contradiction
  · contradiction

/-- Two literals, be they of one pool or of two, are the same exactly when they
are of two constants of one type with the same value. -/
theorem literal_eq_literal_iff {pool pool' : Pool} {index index' : PoolIndex}
    {shown shown' : String} (h : pool.literal index = .ok shown)
    (h' : pool'.literal index' = .ok shown') :
    ∃ constant constant', pool.fieldConstant? index = some constant ∧
      pool'.fieldConstant? index' = some constant' ∧
      (shown = shown' ↔ constant.SameValue constant') := by
  obtain ⟨constant, hfound, rfl⟩ := literal_eq_ok h
  obtain ⟨constant', hfound', rfl⟩ := literal_eq_ok h'
  exact ⟨constant, constant', hfound, hfound', constant.literal_inj constant'⟩

/-- Two words that are no number, one of them with its sign bit set, look the
same in a pool of their own each. -/
theorem literal_eq_literal_iff_notANumber :
    let pool := ofConstants [.float 0x7FC00000]
    let pool' := ofConstants [.long 0, .float 0xFF800001]
    pool.literal 1 = .ok "NaNf" ∧ pool'.literal 3 = .ok "NaNf" ∧
      ∃ constant constant', pool.fieldConstant? 1 = some constant ∧
        pool'.fieldConstant? 3 = some constant' ∧
        ("NaNf" = "NaNf" ↔ constant.SameValue constant') := by
  intro pool pool'
  have hshown : pool.literal 1 = .ok "NaNf" := by decide
  have hshown' : pool'.literal 3 = .ok "NaNf" := by decide
  exact ⟨hshown, hshown', literal_eq_literal_iff hshown hshown'⟩

/-- The neighbours of a tenth need more digits. -/
example :
    (ofConstants [.float 0x3DCCCCCD]).literal 1 = .ok "0.1f" ∧
      (ofConstants [.float 0x3DCCCCCE]).literal 1 = .ok "0.10000001f" := by
  decide

end Pool

end ClassDelta
