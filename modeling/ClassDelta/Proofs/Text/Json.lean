import ClassDelta.Proofs.Text.Decimal
import ClassDelta.Proofs.Text.Quoted
import ClassDelta.Text.Json

/-!
# The text of a document tells what the document is

`Json.pretty` is read back in steps, each of which leaves alone what follows.
A string shows where it ends by its second quote (`Json.quote_append_inj`), and
brackets by the comma or the line break behind each item
(`Json.bracketed_append_inj`).  A number alone does not: what follows has to be
no digit, so that is asked of the rest of every text (`EndsNumber`).  Behind a
value in brackets it always holds.

The first character of a document shows which of these it is
(`Json.exists_lead`).  The main statement is `Json.isLegible_pretty`: when two
texts start with documents and are the same, so are the documents.

`Json.HasDistinctKeys` says of a document that no object in it uses a name twice.
-/

namespace ClassDelta

/-! ## Where a number ends -/

/-- What stands here does not go on with a number. -/
def EndsNumber (rest : List Char) : Prop := ∀ char ∈ rest.head?, char.isDigit = false

theorem endsNumber_cons {char : Char} (h : char.isDigit = false) (rest : List Char) :
    EndsNumber (char :: rest) := by
  intro first hfirst
  cases hfirst
  exact h

/-- Digits end where something else follows. -/
theorem digits_append_inj {front front' rest rest' : List Char} (hfront : IsDigits front)
    (hfront' : IsDigits front') (hrest : EndsNumber rest) (hrest' : EndsNumber rest')
    (heq : front ++ rest = front' ++ rest') : front = front' ∧ rest = rest' := by
  have htake {text after : List Char} (htext : IsDigits text) (hafter : EndsNumber after) :
      (text ++ after).takeWhile Char.isDigit = text := by
    rw [List.takeWhile_append_of_pos htext]
    cases after with
    | nil => simp
    | cons char after =>
      have hchar : char.isDigit = false := hafter char rfl
      rw [List.takeWhile_cons_of_neg (by rw [hchar]; decide), List.append_nil]
  have hsame : front = front' := by rw [← htake hfront hrest, heq, htake hfront' hrest']
  subst hsame
  exact ⟨rfl, List.append_cancel_left heq⟩

namespace Json

/-! ## Documents and their parts -/

/-- What holds of a document because it holds of its elements and fields. -/
@[elab_as_elim]
theorem induction {motive : Json → Prop} (null : motive .null)
    (bool : ∀ value, motive (.bool value)) (number : ∀ value, motive (.number value))
    (string : ∀ text, motive (.string text))
    (array : ∀ elements : List Json, (∀ element ∈ elements, motive element) →
      motive (.array elements))
    (object : ∀ fields : List (String × Json), (∀ field ∈ fields, motive field.2) →
      motive (.object fields))
    (document : Json) : motive document := by
  refine @Json.rec motive (fun elements => ∀ element ∈ elements, motive element)
    (fun fields => ∀ field ∈ fields, motive field.2) (fun field => motive field.2)
    null bool number string array object ?_ ?_ ?_ ?_ ?_ document
  · exact List.forall_mem_nil _
  · exact fun element later helement hlater => List.forall_mem_cons.2 ⟨helement, hlater⟩
  · exact List.forall_mem_nil _
  · exact fun field later hfield hlater => List.forall_mem_cons.2 ⟨hfield, hlater⟩
  · exact fun name value hvalue => hvalue

theorem prettyElements_eq_map (depth : Nat) (elements : List Json) :
    prettyElements depth elements = elements.map (pretty depth) := by
  induction elements with
  | nil => rw [prettyElements, List.map_nil]
  | cons element later ih => rw [prettyElements, List.map_cons, ih]

/-- The text of a field. -/
def prettyField (depth : Nat) (field : String × Json) : String :=
  quote field.1 ++ ": " ++ pretty depth field.2

theorem prettyFields_eq_map (depth : Nat) (fields : List (String × Json)) :
    prettyFields depth fields = fields.map (prettyField depth) := by
  induction fields with
  | nil => rw [prettyFields, List.map_nil]
  | cons field later ih => rw [prettyFields, List.map_cons, ih, prettyField]

/-! ## Strings -/

/-- The character that a mark stands for behind a backslash. -/
def ofMark? : Char → Option Char
  | '"' => some '"'
  | '\\' => some '\\'
  | 'n' => some '\n'
  | 'r' => some '\r'
  | 't' => some '\t'
  | 'b' => some (Char.ofNat 8)
  | 'f' => some (Char.ofNat 12)
  | _ => none

/-- The forms that a character has between the quotes. -/
inductive Escape (char : Char) : List Char → Prop
  | mark (mark : Char) (h : ofMark? mark = some char) : Escape char ['\\', mark]
  | code (h : char.toNat < 0x20) : Escape char
      ['\\', 'u', '0', '0', Nat.digitChar (char.toNat / 16), Nat.digitChar (char.toNat % 16)]
  | plain (hquote : char ≠ '"') (hbackslash : char ≠ '\\') : Escape char [char]

theorem escape_toList (char : Char) : Escape char (escape char).toList := by
  unfold escape
  split_ifs with hquote hbackslash hline hreturn htab hback hfeed hcontrol
  · exact .mark '"' (by rw [hquote]; rfl)
  · exact .mark '\\' (by rw [hbackslash]; rfl)
  · exact .mark 'n' (by rw [hline]; rfl)
  · exact .mark 'r' (by rw [hreturn]; rfl)
  · exact .mark 't' (by rw [htab]; rfl)
  · exact .mark 'b' (by rw [← Char.ofNat_toNat char, hback]; rfl)
  · exact .mark 'f' (by rw [← Char.ofNat_toNat char, hfeed]; rfl)
  · have hlist : ("\\u00" ++ String.ofList
          [Nat.digitChar (char.toNat / 16), Nat.digitChar (char.toNat % 16)]).toList =
        ['\\', 'u', '0', '0', Nat.digitChar (char.toNat / 16), Nat.digitChar (char.toNat % 16)] := by
      simp
    rw [hlist]
    exact .code hcontrol
  · rw [Char.toString_eq_singleton, String.toList_singleton]
    exact .plain hquote hbackslash

/-- What follows an escape plays no part in reading it. -/
theorem Escape.inj {char char' : Char} {form form' rest rest' : List Char} (h : Escape char form)
    (h' : Escape char' form') (heq : form ++ rest = form' ++ rest') :
    char = char' ∧ rest = rest' := by
  have hletter : ofMark? 'u' = none := rfl
  cases h <;> cases h' <;> simp only [List.cons_append, List.nil_append, List.cons.injEq,
    true_and] at heq
  case mark.mark mark hmark mark' hmark' =>
    obtain ⟨rfl, hrest⟩ := heq
    exact ⟨Option.some.inj (hmark.symm.trans hmark'), hrest⟩
  case code.code hsmall hsmall' =>
    obtain ⟨hhigh, hlow, hrest⟩ := heq
    have hquotient := digitChar_inj (by omega) (by omega) hhigh
    have hremainder := digitChar_inj (by omega) (by omega) hlow
    exact ⟨Char.toNat_inj.1 (by omega), hrest⟩
  case plain.plain => exact heq
  case mark.code mark hmark hsmall =>
    rw [heq.1, hletter] at hmark
    contradiction
  case code.mark hsmall mark hmark =>
    rw [← heq.1, hletter] at hmark
    contradiction
  -- A plain character is never the backslash of an escape.
  case mark.plain hne => exact absurd heq.1.symm hne
  case code.plain hne => exact absurd heq.1.symm hne
  case plain.mark hne _ _ => exact absurd heq.1 hne
  case plain.code hne _ => exact absurd heq.1 hne

/-- No escape starts with the quote that ends a string. -/
theorem Escape.ne_quote {char : Char} {form rest rest' : List Char} (h : Escape char form) :
    form ++ rest ≠ '"' :: rest' := by
  intro heq
  cases h with
  | mark mark hmark => exact absurd (List.cons.inj heq).1 (by decide)
  | code hsmall => exact absurd (List.cons.inj heq).1 (by decide)
  | plain hquote => exact absurd (List.cons.inj heq).1 hquote

theorem toList_quote (text : String) :
    (quote text).toList =
      '"' :: (text.toList.flatMap (fun char => (escape char).toList) ++ ['"']) := by
  simp [quote, String.toList_join, List.flatMap_map]

/-- A string ends at its second quote, whatever follows. -/
theorem quote_append_inj {text text' : String} {rest rest' : List Char}
    (heq : (quote text).toList ++ rest = (quote text').toList ++ rest') :
    text = text' ∧ rest = rest' := by
  rw [toList_quote, toList_quote, List.cons_append, List.cons_append, List.append_assoc,
    List.append_assoc] at heq
  obtain ⟨htext, hrest⟩ := flatMap_append_inj
    (fun char _ char' later later' hsame => (escape_toList char).inj (escape_toList char') hsame)
    (fun char after => (escape_toList char).ne_quote)
    (fun char after => (escape_toList char).ne_quote) (List.cons.inj heq).2
  exact ⟨String.toList_inj.1 htext, (List.cons.inj hrest).2⟩

/-! ## Brackets -/

variable {α : Type}

/-- The text of the value differs from those of all others before the value ends. -/
def IsLegible (write : α → String) (value : α) : Prop :=
  ∀ (value' : α) (rest rest' : List Char), EndsNumber rest → EndsNumber rest' →
    (write value).toList ++ rest = (write value').toList ++ rest' → value = value' ∧ rest = rest'

/-- What stands behind the first item up to the closing bracket. -/
def laterItems (depth : Nat) (right : Char) (items : List String) : List Char :=
  items.flatMap (fun item => ',' :: '\n' :: ((indent (depth + 1)).toList ++ item.toList)) ++
    '\n' :: ((indent depth).toList ++ [right])

theorem toList_bracketed_nil (depth : Nat) (left right : Char) :
    (bracketed depth left.toString right.toString []).toList = [left, right] := by
  simp [bracketed]

theorem toList_bracketed_cons (depth : Nat) (left right : Char) (item : String)
    (later : List String) :
    (bracketed depth left.toString right.toString (item :: later)).toList =
      left :: '\n' :: ((indent (depth + 1)).toList ++ item.toList ++
        laterItems depth right later) := by
  have hlines (first : List Char) (lines : List (List Char)) :
      [',', '\n'].intercalate (first :: lines) =
        first ++ lines.flatMap fun line => ',' :: '\n' :: line := by
    induction lines generalizing first with
    | nil => simp
    | cons line lines ih => simp [List.intercalate_cons_cons, ih]
  simp [bracketed, laterItems, String.toList_intercalate, hlines, List.flatMap_map,
    List.map_map, Function.comp_def]

theorem endsNumber_laterItems (depth : Nat) (right : Char) (items : List String)
    (rest : List Char) : EndsNumber (laterItems depth right items ++ rest) := by
  cases items with
  | nil => exact endsNumber_cons (by decide) _
  | cons item items => exact endsNumber_cons (by decide) _

/-- A comma goes on with the items and a line break ends them. -/
theorem laterItems_append_inj {write : α → String} {depth : Nat} {right : Char}
    {values values' : List α} {rest rest' : List Char}
    (hlegible : ∀ value ∈ values, IsLegible write value)
    (heq : laterItems depth right (values.map write) ++ rest =
      laterItems depth right (values'.map write) ++ rest') : values = values' ∧ rest = rest' := by
  have hforms (values : List α) (after : List Char) :
      laterItems depth right (values.map write) ++ after =
        values.flatMap (fun value => [',', '\n'] ++ (indent (depth + 1)).toList ++
          (write value).toList) ++ '\n' :: ((indent depth).toList ++ right :: after) := by
    simp [laterItems, List.flatMap_map]
  rw [hforms, hforms] at heq
  have hinj := flatMap_append_inj (fun value hmem value' later later' hsame => ?_)
    (fun value after hsame => absurd (List.cons.inj hsame).1 (by decide))
    (fun value after hsame => absurd (List.cons.inj hsame).1 (by decide)) heq
  · obtain ⟨hvalues, hend⟩ := hinj
    exact ⟨hvalues, (List.cons.inj (List.append_cancel_left (List.cons.inj hend).2)).2⟩
  · rw [← hforms, ← hforms] at hsame ⊢
    simp only [List.append_assoc] at hsame
    exact hlegible value hmem value' _ _ (endsNumber_laterItems _ _ _ _)
      (endsNumber_laterItems _ _ _ _) (List.append_cancel_left (List.append_cancel_left hsame))

/-- Values in brackets are read one by one up to the bracket that closes.  No
line break behind the opening bracket means that there are none. -/
theorem bracketed_append_inj {write : α → String} {depth : Nat} (left right : Char)
    {values values' : List α} {rest rest' : List Char} (hright : right ≠ '\n')
    (hlegible : ∀ value ∈ values, IsLegible write value)
    (heq : (bracketed depth left.toString right.toString (values.map write)).toList ++ rest =
      (bracketed depth left.toString right.toString (values'.map write)).toList ++ rest') :
    values = values' ∧ rest = rest' := by
  cases values with
  | nil =>
    cases values' with
    | nil => exact ⟨rfl, List.append_cancel_left heq⟩
    | cons value' later' =>
      rw [List.map_cons, toList_bracketed_cons, List.map_nil, toList_bracketed_nil] at heq
      exact absurd (List.cons.inj (List.cons.inj heq).2).1 hright
  | cons value later =>
    cases values' with
    | nil =>
      rw [List.map_cons, toList_bracketed_cons, List.map_nil, toList_bracketed_nil] at heq
      exact absurd (List.cons.inj (List.cons.inj heq).2).1.symm hright
    | cons value' later' =>
      simp only [List.map_cons, toList_bracketed_cons, List.cons_append, List.append_assoc,
        List.cons.injEq, true_and, List.append_cancel_left_eq] at heq
      obtain ⟨rfl, hafter⟩ := hlegible value List.mem_cons_self value' _ _
        (endsNumber_laterItems _ _ _ _) (endsNumber_laterItems _ _ _ _) heq
      obtain ⟨rfl, hrest⟩ := laterItems_append_inj
        (fun value hmem => hlegible value (List.mem_cons_of_mem _ hmem)) hafter
      exact ⟨rfl, hrest⟩

/-! ## Documents -/

/-- What a document is, without its contents; of the two truth values, which. -/
inductive Kind
  | null
  | bool (value : Bool)
  | number
  | string
  | array
  | object

def kind : Json → Kind
  | null => .null
  | bool value => .bool value
  | number _ => .number
  | string _ => .string
  | array _ => .array
  | object _ => .object

/-- The kind of the documents that start with a character. -/
def kindOf (lead : Char) : Kind :=
  if lead.isDigit then .number
  else match lead with
    | 'n' => .null
    | 't' => .bool true
    | 'f' => .bool false
    | '"' => .string
    | '[' => .array
    | _ => .object

theorem exists_lead_bracketed (depth : Nat) (left right : Char) (items : List String) :
    ∃ later, (bracketed depth left.toString right.toString items).toList = left :: later := by
  cases items with
  | nil => exact ⟨_, toList_bracketed_nil depth left right⟩
  | cons item later => exact ⟨_, toList_bracketed_cons depth left right item later⟩

/-- The first character of a document shows its kind. -/
theorem exists_lead (depth : Nat) (document : Json) :
    ∃ lead later, (pretty depth document).toList = lead :: later ∧
      kindOf lead = document.kind := by
  cases document with
  | null =>
    rw [pretty]
    exact ⟨'n', ['u', 'l', 'l'], rfl, rfl⟩
  | bool value =>
    cases value with
    | true =>
      rw [pretty]
      exact ⟨'t', ['r', 'u', 'e'], rfl, rfl⟩
    | false =>
      rw [pretty]
      exact ⟨'f', ['a', 'l', 's', 'e'], rfl, rfl⟩
  | number value =>
    rw [pretty, Nat.toList_repr]
    have hdigits := isDigits_toDigits value
    cases hlist : Nat.toDigits 10 value with
    | nil => exact absurd hlist Nat.toDigits_ne_nil
    | cons digit later =>
      rw [hlist] at hdigits
      exact ⟨digit, later, rfl, if_pos (hdigits digit List.mem_cons_self)⟩
  | string text =>
    rw [pretty, toList_quote]
    exact ⟨'"', _, rfl, rfl⟩
  | array elements =>
    rw [pretty]
    obtain ⟨later, hlater⟩ := exists_lead_bracketed depth '[' ']' (prettyElements (depth + 1) elements)
    exact ⟨'[', later, hlater, rfl⟩
  | object fields =>
    rw [pretty]
    obtain ⟨later, hlater⟩ :=
      exists_lead_bracketed depth '\x7b' '\x7d' (prettyFields (depth + 1) fields)
    exact ⟨'\x7b', later, hlater, rfl⟩

theorem kind_eq_of_pretty_append {depth : Nat} {document document' : Json} {rest rest' : List Char}
    (heq : (pretty depth document).toList ++ rest = (pretty depth document').toList ++ rest') :
    document.kind = document'.kind := by
  obtain ⟨lead, later, hlead, hkind⟩ := exists_lead depth document
  obtain ⟨lead', later', hlead', hkind'⟩ := exists_lead depth document'
  rw [hlead, hlead'] at heq
  rw [← hkind, ← hkind', (List.cons.inj heq).1]

theorem isLegible_prettyField {depth : Nat} {field : String × Json}
    (h : IsLegible (pretty depth) field.2) : IsLegible (prettyField depth) field := by
  intro field' rest rest' hrest hrest' heq
  simp only [prettyField, String.toList_append, List.append_assoc] at heq
  obtain ⟨hname, hlater⟩ := quote_append_inj heq
  obtain ⟨hvalue, hafter⟩ := h field'.2 rest rest' hrest hrest' (List.append_cancel_left hlater)
  exact ⟨Prod.ext hname hvalue, hafter⟩

/-- A document is known by its text, from wherever it starts.  The induction is
on the document; the other one has to be of the same kind. -/
theorem isLegible_pretty (depth : Nat) (document : Json) : IsLegible (pretty depth) document := by
  induction document using Json.induction generalizing depth with
  | null =>
    intro document' rest rest' _ _ heq
    have hkind := kind_eq_of_pretty_append heq
    cases document' <;> cases hkind
    exact ⟨rfl, List.append_cancel_left heq⟩
  | bool value =>
    intro document' rest rest' _ _ heq
    have hkind := kind_eq_of_pretty_append heq
    cases document' <;> cases hkind
    exact ⟨rfl, List.append_cancel_left heq⟩
  | number value =>
    intro document' rest rest' hrest hrest' heq
    have hkind := kind_eq_of_pretty_append heq
    cases document' <;> cases hkind
    rename_i value'
    rw [pretty, pretty, Nat.toList_repr, Nat.toList_repr] at heq
    obtain ⟨hdigits, hafter⟩ := digits_append_inj (isDigits_toDigits value)
      (isDigits_toDigits value') hrest hrest' heq
    have hvalue := congrArg (Nat.ofDigitChars 10 · 0) hdigits
    simp only [Nat.ofDigitChars_ten_toDigits] at hvalue
    exact ⟨congrArg number hvalue, hafter⟩
  | string text =>
    intro document' rest rest' _ _ heq
    have hkind := kind_eq_of_pretty_append heq
    cases document' <;> cases hkind
    rw [pretty, pretty] at heq
    obtain ⟨rfl, hafter⟩ := quote_append_inj heq
    exact ⟨rfl, hafter⟩
  | array elements ih =>
    intro document' rest rest' _ _ heq
    have hkind := kind_eq_of_pretty_append heq
    cases document' <;> cases hkind
    rw [pretty, pretty, prettyElements_eq_map, prettyElements_eq_map] at heq
    obtain ⟨rfl, hafter⟩ := bracketed_append_inj '[' ']' (by decide)
      (fun element hmem => ih element hmem (depth + 1)) heq
    exact ⟨rfl, hafter⟩
  | object fields ih =>
    intro document' rest rest' _ _ heq
    have hkind := kind_eq_of_pretty_append heq
    cases document' <;> cases hkind
    rw [pretty, pretty, prettyFields_eq_map, prettyFields_eq_map] at heq
    obtain ⟨rfl, hafter⟩ := bracketed_append_inj '\x7b' '\x7d' (by decide)
      (fun field hmem => isLegible_prettyField (ih field hmem (depth + 1))) heq
    exact ⟨rfl, hafter⟩

/-- Documents on lines of their own are known by these lines. -/
theorem pretty_append_break_inj {depth : Nat} {document document' : Json} :
    document.pretty depth ++ "\n" = document'.pretty depth ++ "\n" ↔ document = document' := by
  constructor
  · intro h
    have hbreak : EndsNumber "\n".toList := endsNumber_cons (by decide) _
    have hchars := congrArg String.toList h
    rw [String.toList_append, String.toList_append] at hchars
    exact (isLegible_pretty depth document document' _ _ hbreak hbreak hchars).1
  · intro h
    rw [h]

/-- Without the line break more digits could follow a number. -/
example : pretty 0 (.number 1) ++ "2" = pretty 0 (.number 12) := by decide

/-! ## Names in objects -/

/-- The part is the document or stands somewhere in it. -/
inductive IsPart (part : Json) : Json → Prop
  | whole : IsPart part part
  | element {elements : List Json} {element : Json} (hmem : element ∈ elements)
      (h : IsPart part element) : IsPart part (.array elements)
  | field {fields : List (String × Json)} {field : String × Json} (hmem : field ∈ fields)
      (h : IsPart part field.2) : IsPart part (.object fields)

/-- No object in the document has two fields of one name. -/
def HasDistinctKeys (document : Json) : Prop :=
  ∀ fields, IsPart (.object fields) document → (fields.map Prod.fst).Nodup

@[simp] theorem hasDistinctKeys_array (elements : List Json) :
    HasDistinctKeys (.array elements) ↔ ∀ element ∈ elements, element.HasDistinctKeys := by
  constructor
  · intro h element hmem fields hpart
    exact h fields (.element hmem hpart)
  · intro h fields hpart
    cases hpart with
    | element hmem hpart => exact h _ hmem fields hpart

@[simp] theorem hasDistinctKeys_object (fields : List (String × Json)) :
    HasDistinctKeys (.object fields) ↔
      (fields.map Prod.fst).Nodup ∧ ∀ field ∈ fields, field.2.HasDistinctKeys := by
  constructor
  · intro h
    exact ⟨h fields .whole, fun field hmem inner hpart => h inner (.field hmem hpart)⟩
  · intro h inner hpart
    cases hpart with
    | whole => exact h.1
    | field hmem hpart => exact h.2 _ hmem inner hpart

@[simp] theorem hasDistinctKeys_bool (value : Bool) : HasDistinctKeys (.bool value) := by
  intro fields hpart
  cases hpart

@[simp] theorem hasDistinctKeys_number (value : Nat) : HasDistinctKeys (.number value) := by
  intro fields hpart
  cases hpart

@[simp] theorem hasDistinctKeys_string (text : String) : HasDistinctKeys (.string text) := by
  intro fields hpart
  cases hpart

@[simp] theorem hasDistinctKeys_ofText? (text : Option String) : (ofText? text).HasDistinctKeys := by
  intro fields hpart
  cases text <;> cases hpart

@[simp] theorem hasDistinctKeys_ofTexts (texts : List String) : (ofTexts texts).HasDistinctKeys := by
  simp [ofTexts]

/-! ## Documents from values -/

@[simp] theorem ofText?_inj {text text' : Option String} :
    ofText? text = ofText? text' ↔ text = text' := by
  cases text <;> cases text' <;> simp [ofText?]

@[simp] theorem ofTexts_inj {texts texts' : List String} :
    ofTexts texts = ofTexts texts' ↔ texts = texts' := by
  have hstring : Function.Injective string := fun text text' h => by cases h; rfl
  unfold ofTexts
  rw [array.injEq, List.map_inj_right fun text text' h => hstring h]

end Json

end ClassDelta
