import ClassDelta.Proofs.Stateful
import ClassDelta.TypeDescriptor

/-!
# The grammar of type descriptors

Reading a descriptor and rendering a type undo each other.  A reader takes off
the front of a text exactly the renderings of the types in which every class
name can stand in a descriptor (`DescriptorReader.Inverts`), and all that is
said about whole texts follows from that: which texts are accepted, that none
has two readings, and that none goes on with another
(`DescriptorReader.IsGrammar`).

The rest of the text stays free throughout.  For field types the two directions
are `FieldType.read_render` and `FieldType.eq_of_read`, by induction on the type
and on the text; the parameters of a method are a list of field types up to the
parenthesis, which starts none.
-/

namespace ClassDelta

/-! ## Readers that undo a rendering -/

namespace DescriptorReader

variable {α : Type} {read : DescriptorReader α} {WellFormed : α → Prop} {render : α → String}

/-- What the reader takes off the front of a text is the rendering of what it
returns, and it takes off every rendering of a well-formed value. -/
def Inverts (read : DescriptorReader α) (WellFormed : α → Prop) (render : α → String) : Prop :=
  ∀ text value rest,
    read text = .ok value rest ↔ WellFormed value ∧ text = (render value).toList ++ rest

/-- The texts of the values, and nothing else, are descriptors. -/
structure IsGrammar (read : DescriptorReader α) (WellFormed : α → Prop) (render : α → String) :
    Prop where
  /-- On any characters, with any rest behind what is read. -/
  inverts : read.Inverts WellFormed render
  /-- A whole text is accepted exactly when it is the rendering of its value. -/
  parse_iff : ∀ text value, parse read text = .ok value ↔ WellFormed value ∧ text = render value
  /-- No text has two readings, whatever follows. -/
  unambiguous : ∀ left right rest rest', WellFormed left → WellFormed right →
    (render left).toList ++ rest = (render right).toList ++ rest' → left = right ∧ rest = rest'
  /-- No accepted text goes on to another one. -/
  prefixFree : ∀ short long value value', parse read short = .ok value →
    parse read long = .ok value' → short.toList <+: long.toList → short = long

theorem parse_eq_ok_iff {text : String} {value : α} :
    parse read text = .ok value ↔ read text.toList = .ok value [] := by
  unfold parse
  split <;> simp_all

theorem Inverts.parse_iff (h : read.Inverts WellFormed render) (text : String) (value : α) :
    parse read text = .ok value ↔ WellFormed value ∧ text = render value := by
  rw [parse_eq_ok_iff, h text.toList value [], List.append_nil, String.toList_inj]

/-- The reader returns one value and leaves one rest. -/
theorem Inverts.unambiguous (h : read.Inverts WellFormed render) {left right : α}
    {rest rest' : List Char} (hleft : WellFormed left) (hright : WellFormed right)
    (heq : (render left).toList ++ rest = (render right).toList ++ rest') :
    left = right ∧ rest = rest' := by
  have hread := (h _ left rest).2 ⟨hleft, rfl⟩
  have hread' := (h _ right rest').2 ⟨hright, rfl⟩
  rw [heq, hread'] at hread
  cases hread
  exact ⟨rfl, rfl⟩

theorem Inverts.prefixFree (h : read.Inverts WellFormed render) {short long : String}
    {value value' : α} (hshort : parse read short = .ok value)
    (hlong : parse read long = .ok value') (hfront : short.toList <+: long.toList) :
    short = long := by
  obtain ⟨hvalue, rfl⟩ := (h.parse_iff _ _).1 hshort
  obtain ⟨hvalue', rfl⟩ := (h.parse_iff _ _).1 hlong
  obtain ⟨rest, hrest⟩ := hfront
  have hsame : (render value).toList ++ rest = (render value').toList ++ [] := by
    rw [hrest, List.append_nil]
  rw [(h.unambiguous hvalue hvalue' hsame).1]

theorem Inverts.isGrammar (h : read.Inverts WellFormed render) :
    read.IsGrammar WellFormed render where
  inverts := h
  parse_iff := h.parse_iff
  unambiguous _ _ _ _ hleft hright heq := h.unambiguous hleft hright heq
  prefixFree _ _ _ _ hshort hlong hfront := h.prefixFree hshort hlong hfront

end DescriptorReader

/-! ## Field types -/

theorem BaseType.letter_of_ofLetter? {letter : Char} {type : BaseType}
    (h : ofLetter? letter = some type) : type.letter = letter := by
  unfold ofLetter? at h
  split at h <;> cases h <;> rfl

namespace FieldType

/-- Every class name in the type can stand in front of the `;` that ends it. -/
def WellFormed : FieldType → Prop
  | base _ => True
  | object className => className ≠ "" ∧ ';' ∉ className.toList
  | array element => element.WellFormed

instance decidableWellFormed : DecidablePred WellFormed
  | base _ => .isTrue trivial
  | object className => inferInstanceAs (Decidable (className ≠ "" ∧ ';' ∉ className.toList))
  | array element => decidableWellFormed element

/-- A class name ends at the first `;`. -/
theorem readClassName_append (before : List Char) {chars : List Char} (rest : List Char)
    (hchars : ';' ∉ chars) (hsome : before.reverse ++ chars ≠ []) :
    readClassName before (chars ++ ';' :: rest) =
      .ok (object (String.ofList (before.reverse ++ chars))) rest := by
  induction chars generalizing before with
  | nil =>
    have hbefore : before ≠ [] := by simpa using hsome
    simp [readClassName, hbefore]
  | cons char chars ih =>
    have hchar : char ≠ ';' := by
      rintro rfl
      exact hchars (List.mem_cons_self ..)
    have hlater := ih (char :: before) (fun hmem => hchars (List.mem_cons_of_mem _ hmem)) (by simp)
    rw [List.cons_append, readClassName.eq_3 _ _ _ hchar, hlater]
    simp

/-- What was read as a class name is the characters up to a `;`. -/
theorem eq_of_readClassName {before text rest : List Char} {type : FieldType}
    (h : readClassName before text = .ok type rest) :
    ∃ chars, ';' ∉ chars ∧ before.reverse ++ chars ≠ [] ∧ text = chars ++ ';' :: rest ∧
      type = object (String.ofList (before.reverse ++ chars)) := by
  fun_induction readClassName before text with
  | case1 before => cases h
  | case2 before rest hempty => cases h
  | case3 before rest hempty =>
    cases h
    refine ⟨[], by simp, ?_, rfl, by simp⟩
    simpa using hempty
  | case4 before char rest hchar ih =>
    obtain ⟨chars, hchars, -, rfl, rfl⟩ := ih h
    refine ⟨char :: chars, ?_, by simp, rfl, by simp⟩
    rintro hmem
    rcases List.mem_cons.1 hmem with rfl | hmem
    · exact hchar rfl
    · exact hchars hmem

/-- The reader takes the rendering of a well-formed type off. -/
theorem read_render {type : FieldType} (h : type.WellFormed) (rest : List Char) :
    read (type.render.toList ++ rest) = .ok type rest := by
  induction type with
  | base type => cases type <;> rfl
  | object className =>
    have hname : [].reverse ++ className.toList ≠ [] := by
      simpa [String.toList_eq_nil_iff] using h.1
    have htext : (object className).render.toList ++ rest =
        'L' :: (className.toList ++ ';' :: rest) := by
      simp [render]
    rw [htext]
    show readClassName [] _ = _
    rw [readClassName_append [] rest h.2 hname]
    simp
  | array element ih =>
    have htext : (array element).render.toList ++ rest = '[' :: (element.render.toList ++ rest) := by
      simp [render]
    rw [htext, read, ih h]

/-- What was read is the rendering of a well-formed type. -/
theorem eq_of_read {text rest : List Char} {type : FieldType} (h : read text = .ok type rest) :
    type.WellFormed ∧ text = type.render.toList ++ rest := by
  fun_induction read text generalizing type rest with
  | case1 => cases h
  | case2 text element later hread ih =>
    cases h
    obtain ⟨helement, rfl⟩ := ih hread
    exact ⟨helement, by simp [render]⟩
  | case3 text error later hread ih => cases h
  | case4 text =>
    obtain ⟨chars, hchars, hsome, rfl, rfl⟩ := eq_of_readClassName h
    rw [List.reverse_nil, List.nil_append] at hsome ⊢
    refine ⟨⟨?_, by simpa using hchars⟩, by simp [render]⟩
    simpa [← String.toList_inj] using hsome
  | case5 letter text _ _ type hletter =>
    -- neither an array nor a class: one letter
    cases h
    exact ⟨trivial, by simp [render, BaseType.letter_of_ofLetter? hletter]⟩
  | case6 => cases h

theorem inverts_read : read.Inverts WellFormed render := by
  intro text type rest
  constructor
  · exact eq_of_read
  · rintro ⟨htype, rfl⟩
    exact read_render htype rest

example : WellFormed (.array (.object "A")) ∧ ¬ WellFormed (.object "A;B") := by decide

end FieldType

/-! ## Method types -/

namespace MethodType

/-- Every parameter type and the return type is well formed. -/
structure WellFormed (type : MethodType) : Prop where
  parameters : ∀ parameter ∈ type.parameters, parameter.WellFormed
  result : ∀ result ∈ type.result, result.WellFormed

/-- The texts of some parameters in a row. -/
def renderAll (parameters : List FieldType) : List Char :=
  parameters.flatMap fun parameter => parameter.render.toList

/-- The text of a return type. -/
def renderResult : Option FieldType → List Char
  | some result => result.render.toList
  | none => ['V']

theorem toList_render (type : MethodType) :
    type.render.toList =
      '(' :: (renderAll type.parameters ++ ')' :: renderResult type.result) := by
  unfold render renderAll renderResult
  cases type.result <;> simp [List.flatMap_map]

/-- Every parameter takes a character at least. -/
theorem length_le_renderAll (parameters : List FieldType) :
    parameters.length ≤ (renderAll parameters).length := by
  induction parameters with
  | nil => exact Nat.le_refl 0
  | cons parameter parameters ih =>
    have hparameter : 0 < parameter.render.toList.length := by
      cases parameter <;> simp [FieldType.render]
    have hsplit : renderAll (parameter :: parameters) =
        parameter.render.toList ++ renderAll parameters := List.flatMap_cons
    rw [hsplit, List.length_cons, List.length_append]
    omega

/-- The parenthesis that ends the parameters starts no type. -/
theorem readParameters_of_read {text rest : List Char} {parameter : FieldType}
    (h : FieldType.read text = .ok parameter rest) (fuel : Nat) (before : List FieldType) :
    readParameters (fuel + 1) before text = readParameters fuel (parameter :: before) rest := by
  simp only [readParameters]
  split
  · cases h
  · rw [h]

/-- Well-formed parameters read back up to the parenthesis, if there is fuel
for one step more than there are parameters. -/
theorem readParameters_renderAll {parameters : List FieldType}
    (h : ∀ parameter ∈ parameters, parameter.WellFormed) (fuel : Nat)
    (hfuel : parameters.length < fuel) (before : List FieldType) (rest : List Char) :
    readParameters fuel before (renderAll parameters ++ ')' :: rest) =
      .ok (before.reverse ++ parameters) rest := by
  induction parameters generalizing fuel before with
  | nil =>
    obtain ⟨fuel, rfl⟩ := Nat.exists_eq_add_one.2 hfuel
    rw [List.append_nil]
    rfl
  | cons parameter parameters ih =>
    rw [List.length_cons] at hfuel
    obtain ⟨fuel, rfl⟩ : ∃ left, fuel = left + 1 := ⟨fuel - 1, by omega⟩
    have hread := FieldType.read_render (h parameter (List.mem_cons_self ..))
      (renderAll parameters ++ ')' :: rest)
    have hlater := ih (fun later hmem => h later (List.mem_cons_of_mem _ hmem))
      fuel (by omega) (parameter :: before)
    have hsplit : renderAll (parameter :: parameters) ++ ')' :: rest =
        parameter.render.toList ++ (renderAll parameters ++ ')' :: rest) := by
      rw [renderAll, List.flatMap_cons, List.append_assoc]
      rfl
    rw [hsplit, readParameters_of_read hread, hlater]
    simp

/-- What was read as parameters is their texts in a row and the parenthesis. -/
theorem eq_of_readParameters {fuel : Nat} {before types : List FieldType} {text rest : List Char}
    (h : readParameters fuel before text = .ok types rest) :
    ∃ parameters, types = before.reverse ++ parameters ∧
      (∀ parameter ∈ parameters, parameter.WellFormed) ∧
      text = renderAll parameters ++ ')' :: rest := by
  induction fuel generalizing before text with
  | zero => cases h
  | succ fuel ih =>
    simp only [readParameters] at h
    split at h
    · cases h
      exact ⟨[], by simp, by simp, rfl⟩
    · split at h
      · rename_i parameter later hread
        obtain ⟨hparameter, rfl⟩ := FieldType.eq_of_read hread
        obtain ⟨parameters, rfl, hparameters, rfl⟩ := ih h
        refine ⟨parameter :: parameters, by simp, ?_, by simp [renderAll]⟩
        intro other hmem
        rcases List.mem_cons.1 hmem with rfl | hmem
        · exact hparameter
        · exact hparameters other hmem
      · cases h

/-- `V` starts no type. -/
theorem readResult_of_read {text rest : List Char} {result : FieldType}
    (h : FieldType.read text = .ok result rest) : readResult text = .ok (some result) rest := by
  unfold readResult
  split
  · cases h
  · show EStateM.map some FieldType.read text = _
    simp only [EStateM.map, h]

theorem readResult_renderResult {result : Option FieldType}
    (h : ∀ type ∈ result, type.WellFormed) (rest : List Char) :
    readResult (renderResult result ++ rest) = .ok result rest := by
  cases result with
  | none => rfl
  | some type => exact readResult_of_read (FieldType.read_render (h type rfl) rest)

theorem eq_of_readResult {text rest : List Char} {result : Option FieldType}
    (h : readResult text = .ok result rest) :
    (∀ type ∈ result, type.WellFormed) ∧ text = renderResult result ++ rest := by
  unfold readResult at h
  split at h
  · cases h
    exact ⟨by simp, rfl⟩
  · change EStateM.map some FieldType.read text = _ at h
    unfold EStateM.map at h
    split at h
    · rename_i type later hread
      cases h
      obtain ⟨htype, rfl⟩ := FieldType.eq_of_read hread
      refine ⟨fun other hmem => ?_, rfl⟩
      cases hmem
      exact htype
    · cases h

/-- The reader takes the rendering of a well-formed type off. -/
theorem read_render {type : MethodType} (h : type.WellFormed) (rest : List Char) :
    read (type.render.toList ++ rest) = .ok type rest := by
  have hlength := length_le_renderAll type.parameters
  have hparameters := readParameters_renderAll h.parameters
    ((renderAll type.parameters ++ ')' :: (renderResult type.result ++ rest)).length + 1)
    (by rw [List.length_append]; omega) [] (renderResult type.result ++ rest)
  have hresult := readResult_renderResult h.result rest
  rw [toList_render, List.cons_append, List.append_assoc, List.cons_append]
  -- behind the opening parenthesis, with all that is left as fuel
  show ((do
    let parameters ← readParameters _ []
    let result ← readResult
    return ⟨parameters, result⟩ : DescriptorReader MethodType) _) = _
  rw [Stateful.bind_of_ok hparameters, Stateful.bind_of_ok hresult]
  rfl

/-- What was read is the rendering of a well-formed type. -/
theorem eq_of_read {text rest : List Char} {type : MethodType} (h : read text = .ok type rest) :
    type.WellFormed ∧ text = type.render.toList ++ rest := by
  unfold read at h
  split at h
  · obtain ⟨parameters, between, hparameters, h⟩ := Stateful.bind_eq_ok h
    obtain ⟨result, after, hresult, h⟩ := Stateful.bind_eq_ok h
    cases h
    obtain ⟨_, rfl, hfits, rfl⟩ := eq_of_readParameters hparameters
    obtain ⟨hfits', rfl⟩ := eq_of_readResult hresult
    refine ⟨⟨hfits, hfits'⟩, ?_⟩
    simp [toList_render]
  · cases h

theorem inverts_read : read.Inverts WellFormed render := by
  intro text type rest
  constructor
  · exact eq_of_read
  · rintro ⟨htype, rfl⟩
    exact read_render htype rest

end MethodType

/-- The readers of field types and of method types accept the renderings of
well-formed types and nothing else. -/
theorem isGrammar_field_and_method :
    FieldType.read.IsGrammar FieldType.WellFormed FieldType.render ∧
      MethodType.read.IsGrammar MethodType.WellFormed MethodType.render :=
  ⟨FieldType.inverts_read.isGrammar, MethodType.inverts_read.isGrammar⟩

end ClassDelta
