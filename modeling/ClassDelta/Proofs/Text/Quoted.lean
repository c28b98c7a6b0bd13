import Mathlib.Data.List.Basic
import ClassDelta.Text.Quoted

/-!
# Quoted texts are told apart

A character between the quotes stands as itself, as a backslash with a mark
behind it, or as its code in braces (`Quoted.Escape`).  Which of the three it
is shows at the first two characters, and each shows where it ends, so quoted
texts can be read back one character at a time (`flatMap_append_inj`).  Different
texts therefore have different quoted forms, whatever they contain
(`Quoted.quote_inj`).
-/

namespace ClassDelta

/-! ## Hexadecimal digits -/

theorem digitChar_inj {left right : Nat} (hleft : left < 16) (hright : right < 16)
    (h : left.digitChar = right.digitChar) : left = right := by
  have hall : ∀ left right : Fin 16, left.val.digitChar = right.val.digitChar → left = right := by
    decide
  exact congrArg Fin.val (hall ⟨left, hleft⟩ ⟨right, hright⟩ h)

theorem toDigits_sixteen_inj {left right : Nat}
    (h : Nat.toDigits 16 left = Nat.toDigits 16 right) : left = right := by
  induction left using Nat.strongRecOn generalizing right with
  | ind left ih =>
    rw [Nat.toDigits_eq_if (n := left) (by decide),
      Nat.toDigits_eq_if (n := right) (by decide)] at h
    split_ifs at h with hleft hright hright
    · exact digitChar_inj hleft hright (List.singleton_inj.1 h)
    · simp [List.singleton_eq_append_iff, Nat.toDigits_ne_nil] at h
    · simp [List.append_eq_singleton_iff, Nat.toDigits_ne_nil] at h
    · obtain ⟨hfront, hlast⟩ := List.append_inj' h rfl
      have hquotient := ih (left / 16) (by omega) hfront
      have hremainder := digitChar_inj (Nat.mod_lt left (by decide)) (Nat.mod_lt right (by decide))
        (List.singleton_inj.1 hlast)
      omega

theorem not_mem_toDigits_sixteen (number : Nat) : '\x7d' ∉ Nat.toDigits 16 number := by
  have hdigit : ∀ digit : Fin 16, digit.val.digitChar ≠ '\x7d' := by decide
  induction number using Nat.strongRecOn with
  | ind number ih =>
    rw [Nat.toDigits_eq_if (by decide)]
    split_ifs with hsmall
    · rw [List.mem_singleton]
      exact (hdigit ⟨number, hsmall⟩).symm
    · rw [List.mem_append, List.mem_singleton, not_or]
      exact ⟨ih (number / 16) (by omega),
        (hdigit ⟨number % 16, Nat.mod_lt number (by decide)⟩).symm⟩

/-- The first mark is where the text in front of it ends. -/
theorem append_mark_inj {mark : Char} {before before' after after' : List Char}
    (h : mark ∉ before) (h' : mark ∉ before')
    (heq : before ++ mark :: after = before' ++ mark :: after') :
    before = before' ∧ after = after' := by
  induction before generalizing before' with
  | nil =>
    cases before' with
    | nil => exact ⟨rfl, (List.cons.inj heq).2⟩
    | cons char before' =>
      obtain ⟨rfl, -⟩ := List.cons.inj heq
      exact absurd List.mem_cons_self h'
  | cons char before ih =>
    cases before' with
    | nil =>
      obtain ⟨rfl, -⟩ := List.cons.inj heq
      exact absurd List.mem_cons_self h
    | cons char' before' =>
      obtain ⟨rfl, htail⟩ := List.cons.inj heq
      obtain ⟨rfl, rfl⟩ :=
        ih (List.not_mem_of_not_mem_cons h) (List.not_mem_of_not_mem_cons h') htail
      exact ⟨rfl, rfl⟩

/-! ## Forms one after another -/

/-- Items are read one by one up to a stop, as no form looks like one.  A form has
to show its item and its end in front of other forms and the stop alone. -/
theorem flatMap_append_inj {α : Type} {form : α → List Char} {items items' : List α}
    {stop stop' : List Char}
    (hread : ∀ item ∈ items, ∀ (item' : α) (later later' : List α),
      form item ++ (later.flatMap form ++ stop) = form item' ++ (later'.flatMap form ++ stop') →
        item = item' ∧ later.flatMap form ++ stop = later'.flatMap form ++ stop')
    (hstop : ∀ item rest, form item ++ rest ≠ stop)
    (hstop' : ∀ item rest, form item ++ rest ≠ stop')
    (heq : items.flatMap form ++ stop = items'.flatMap form ++ stop') :
    items = items' ∧ stop = stop' := by
  induction items generalizing items' with
  | nil =>
    cases items' with
    | nil => exact ⟨rfl, heq⟩
    | cons item' later' =>
      rw [List.flatMap_cons, List.append_assoc] at heq
      exact absurd heq.symm (hstop item' _)
  | cons item later ih =>
    cases items' with
    | nil =>
      rw [List.flatMap_cons, List.append_assoc] at heq
      exact absurd heq (hstop' item _)
    | cons item' later' =>
      rw [List.flatMap_cons, List.flatMap_cons, List.append_assoc, List.append_assoc] at heq
      obtain ⟨rfl, hlater⟩ := hread item List.mem_cons_self item' later later' heq
      obtain ⟨rfl, hend⟩ := ih (fun item hmem => hread item (List.mem_cons_of_mem _ hmem)) hlater
      exact ⟨rfl, hend⟩

namespace Quoted

/-! ## Escapes -/

/-- The character that a mark stands for behind a backslash. -/
def ofMark? : Char → Option Char
  | '"' => some '"'
  | '\\' => some '\\'
  | 'n' => some '\n'
  | 'r' => some '\r'
  | 't' => some '\t'
  | '0' => some (Char.ofNat 0)
  | _ => none

/-- The forms that a character has between the quotes. -/
inductive Escape (char : Char) : List Char → Prop
  | mark (mark : Char) (h : ofMark? mark = some char) : Escape char ['\\', mark]
  | code : Escape char ('\\' :: 'u' :: '\x7b' :: (Nat.toDigits 16 char.toNat ++ ['\x7d']))
  | plain (h : char ≠ '\\') : Escape char [char]

theorem escape_toList (char : Char) : Escape char (escape char).toList := by
  unfold escape
  split_ifs with hquote hbackslash hline hreturn htab hzero hunseen
  · exact .mark '"' (by rw [hquote]; rfl)
  · exact .mark '\\' (by rw [hbackslash]; rfl)
  · exact .mark 'n' (by rw [hline]; rfl)
  · exact .mark 'r' (by rw [hreturn]; rfl)
  · exact .mark 't' (by rw [htab]; rfl)
  · exact .mark '0' (by rw [← Char.ofNat_toNat char, hzero]; rfl)
  · have hlist : (codeEscape char).toList =
        '\\' :: 'u' :: '\x7b' :: (Nat.toDigits 16 char.toNat ++ ['\x7d']) := by
      simp [codeEscape]
    rw [hlist]
    exact .code
  · rw [Char.toString_eq_singleton, String.toList_singleton]
    exact .plain hbackslash

/-- What follows an escape plays no part in reading it. -/
theorem Escape.inj {char char' : Char} {form form' rest rest' : List Char} (h : Escape char form)
    (h' : Escape char' form') (heq : form ++ rest = form' ++ rest') :
    char = char' ∧ rest = rest' := by
  have hletter : ofMark? 'u' = none := rfl
  cases h <;> cases h' <;> simp only [List.cons_append, List.nil_append, List.append_assoc,
    List.cons.injEq, true_and] at heq
  case mark.mark mark hmark mark' hmark' =>
    obtain ⟨rfl, hrest⟩ := heq
    exact ⟨Option.some.inj (hmark.symm.trans hmark'), hrest⟩
  case code.code =>
    obtain ⟨hdigits, hrest⟩ := append_mark_inj (not_mem_toDigits_sixteen _)
      (not_mem_toDigits_sixteen _) heq
    exact ⟨Char.toNat_inj.1 (toDigits_sixteen_inj hdigits), hrest⟩
  case plain.plain => exact heq
  case mark.code mark hmark =>
    rw [heq.1, hletter] at hmark
    contradiction
  case code.mark mark hmark =>
    rw [← heq.1, hletter] at hmark
    contradiction
  -- A plain character is never the backslash of an escape.
  case mark.plain hne => exact absurd heq.1.symm hne
  case code.plain hne => exact absurd heq.1.symm hne
  case plain.mark hne _ _ => exact absurd heq.1 hne
  case plain.code hne => exact absurd heq.1 hne

theorem Escape.ne_nil {char : Char} {form : List Char} (h : Escape char form) : form ≠ [] := by
  cases h <;> exact List.cons_ne_nil _ _

/-! ## Texts -/

theorem toList_quote (text : String) :
    (quote text).toList =
      ['"'] ++ text.toList.flatMap (fun char => (escape char).toList) ++ ['"'] := by
  simp [quote, String.toList_join, List.flatMap_map]

theorem flatMap_escape_inj {chars chars' : List Char}
    (h : chars.flatMap (fun char => (escape char).toList) =
      chars'.flatMap (fun char => (escape char).toList)) : chars = chars' := by
  have hempty (char : Char) (rest : List Char) : (escape char).toList ++ rest ≠ [] :=
    List.append_ne_nil_of_left_ne_nil (escape_toList char).ne_nil rest
  rw [← List.append_nil (List.flatMap _ chars), ← List.append_nil (List.flatMap _ chars')] at h
  refine (flatMap_append_inj (fun char _ char' later later' heq => ?_) hempty hempty h).1
  exact (escape_toList char).inj (escape_toList char') heq

/-- Quoted texts are the same when the texts are. -/
theorem quote_inj {text text' : String} : quote text = quote text' ↔ text = text' := by
  refine ⟨fun h => ?_, congrArg quote⟩
  have hlist := congrArg String.toList h
  rw [toList_quote, toList_quote] at hlist
  have hchars := List.append_cancel_right hlist
  rw [List.append_cancel_left_eq] at hchars
  exact String.toList_inj.1 (flatMap_escape_inj hchars)

/-- A text that looks like an escape is not one. -/
example : quote "\\n" = "\"\\\\n\"" ∧ quote "\n" = "\"\\n\"" := by decide

end Quoted
end ClassDelta
