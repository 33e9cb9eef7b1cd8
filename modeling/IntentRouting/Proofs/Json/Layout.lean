import IntentRouting.Proofs.Json.Tokens

/-!
# Documents as text

A grammar says what a layout may write of a document: blanks stand where they do no harm, and numbers
are whole (`Spells`). Whatever is written by it is read back as the document, whichever depth the reader
allows above that of the document (`value?_of_spells`). Both layouts keep to the grammar, so a document
is read back from its text in either of them (`IsExact.readWithin_compact`,
`IsExact.readWithin_indented`).
-/

namespace IntentRouting.Json

section Grammar

/-- Blanks between tokens. -/
def AreSpaces (characters : List Char) : Prop := ∀ c ∈ characters, isSpace c = true

mutual

/-- The characters of a value. -/
inductive Spells : Json → List Char → Prop
  | null : Spells .null "null".toList
  | yes : Spells (.bool true) "true".toList
  | no : Spells (.bool false) "false".toList
  | int (n : Int) (fits : (Integer.Bounds.signed 64).Contains n) :
      Spells (.int n) (Integer.digits n)
  | string (text : String) : Spells (.string text) (stringChars text)
  | emptyArray : Spells (.array []) ['[', ']']
  | array {items : List Json} {characters : List Char} (spelled : SpellsItems items characters) :
      Spells (.array items) ('[' :: characters)
  | emptyObject : Spells (.object []) ['\x7b', '\x7d']
  | object {members : List (String × Json)} {characters : List Char}
      (spelled : SpellsMembers members characters) : Spells (.object members) ('\x7b' :: characters)

/-- The characters of items up to the bracket that closes the array. -/
inductive SpellsItems : List Json → List Char → Prop
  | last {item : Json} {before characters after : List Char} (spacesBefore : AreSpaces before)
      (spelled : Spells item characters) (spacesAfter : AreSpaces after) :
      SpellsItems [item] (before ++ characters ++ after ++ [']'])
  | more {item : Json} {items : List Json} {before characters more : List Char}
      (spacesBefore : AreSpaces before) (spelled : Spells item characters)
      (later : SpellsItems items more) :
      SpellsItems (item :: items) (before ++ characters ++ ',' :: more)

/-- The characters of members up to the brace that closes the object. -/
inductive SpellsMembers : List (String × Json) → List Char → Prop
  | last {name : String} {value : Json} {before gap characters after : List Char}
      (spacesBefore : AreSpaces before) (spaces : AreSpaces gap)
      (spelled : Spells value characters) (spacesAfter : AreSpaces after) :
      SpellsMembers [(name, value)]
        (before ++ stringChars name ++ ':' :: gap ++ characters ++ after ++ ['\x7d'])
  | more {name : String} {value : Json} {members : List (String × Json)}
      {before gap characters more : List Char} (spacesBefore : AreSpaces before)
      (spaces : AreSpaces gap) (spelled : Spells value characters)
      (later : SpellsMembers members more) :
      SpellsMembers ((name, value) :: members)
        (before ++ stringChars name ++ ':' :: gap ++ characters ++ ',' :: more)

end

end Grammar

section Reading

variable {characters rest before after : List Char} {c : Char} {steps depth : Nat}

@[simp]
theorem skipSpace_cons_of_space (space : isSpace c = true) :
    skipSpace (c :: rest) = skipSpace rest := by
  simp [skipSpace, space]

@[simp]
theorem skipSpace_cons_of_not_space (notSpace : isSpace c = false) :
    skipSpace (c :: rest) = c :: rest := by
  simp [skipSpace, notSpace]

theorem skipSpace_append (spaces : AreSpaces before) :
    skipSpace (before ++ rest) = skipSpace rest := by
  induction before with
  | nil => rfl
  | cons c before ih =>
      rw [AreSpaces, List.forall_mem_cons] at spaces
      rw [List.cons_append, skipSpace_cons_of_space spaces.1, ih spaces.2]

theorem skipSpace_skipSpace (characters : List Char) :
    skipSpace (skipSpace characters) = skipSpace characters := by
  induction characters with
  | nil => rfl
  | cons c characters ih =>
      cases space : isSpace c with
      | true => rw [skipSpace_cons_of_space space, ih]
      | false => rw [skipSpace_cons_of_not_space space, skipSpace_cons_of_not_space space]

/-- Blanks before a value do not count. -/
theorem value?_skipSpace (steps depth : Nat) (characters : List Char) :
    value? steps depth (skipSpace characters) = value? steps depth characters := by
  cases steps with
  | zero => simp [value?]
  | succ steps => rw [value?, value?, skipSpace_skipSpace]

theorem items?_skipSpace (steps depth : Nat) (characters : List Char) :
    items? steps depth (skipSpace characters) = items? steps depth characters := by
  cases steps with
  | zero => simp [items?]
  | succ steps => rw [items?, items?, value?_skipSpace]

theorem members?_skipSpace (steps depth : Nat) (characters : List Char) :
    members? steps depth (skipSpace characters) = members? steps depth characters := by
  cases steps with
  | zero => simp [members?]
  | succ steps => rw [members?, members?, skipSpace_skipSpace]

/-- A comma or a closing mark ends a number, and so do blanks before it. -/
theorem endsNumber_of_mark (spaces : AreSpaces after) (mark : c ∈ [',', ']', '\x7d']) :
    EndsNumber (after ++ c :: rest) := by
  intro first found
  cases after with
  | nil =>
      cases found
      simp only [List.mem_cons, List.not_mem_nil, or_false] at mark
      rcases mark with rfl | rfl | rfl <;> decide
  | cons space after =>
      cases found
      have isBlank := spaces first (List.mem_cons_self ..)
      simp only [isSpace, Bool.or_eq_true, decide_eq_true_eq] at isBlank
      rcases isBlank with ((rfl | rfl) | rfl) | rfl <;> decide

theorem value?_array (opens : ∀ more, skipSpace rest ≠ ']' :: more) :
    value? (steps + 1) (depth + 1) ('[' :: rest) =
      (items? steps depth rest).map fun (items, after) => (.array items, after) := by
  rw [value?, skipSpace_cons_of_not_space (by decide)]
  split
  · rename_i found
    cases found
    dsimp only
    split
    · rename_i more found
      exact absurd found (opens more)
    · rw [items?_skipSpace]
  · rename_i found
    cases found
  · rename_i notArray _
    exact absurd rfl (notArray rest)

theorem value?_object (opens : ∀ more, skipSpace rest ≠ '\x7d' :: more) :
    value? (steps + 1) (depth + 1) ('\x7b' :: rest) =
      (members? steps depth rest).map fun (members, after) => (ofMembers members, after) := by
  rw [value?, skipSpace_cons_of_not_space (by decide)]
  split
  · rename_i found
    cases found
  · rename_i found
    cases found
    dsimp only
    split
    · rename_i more found
      exact absurd found (opens more)
    · rw [members?_skipSpace]
  · rename_i _ notObject
    exact absurd rfl (notObject rest)

theorem exists_digits_cons (n : Int) :
    ∃ c more, Integer.digits n = c :: more ∧ (c = '-' ∨ Text.isAsciiDigit c = true) := by
  rw [Integer.digits]
  split
  · exact ⟨'-', _, rfl, .inl rfl⟩
  · cases found : Nat.toDigits 10 n.natAbs with
    | nil => exact absurd found Integer.toDigits_ne_nil
    | cons c more =>
        refine ⟨c, more, rfl, .inr ?_⟩
        exact Binary.isAsciiDigit_of_mem_toDigits (found ▸ List.mem_cons_self ..)

theorem not_mark_of_digit (digit : c = '-' ∨ Text.isAsciiDigit c = true) :
    isSpace c = false ∧ c ∉ ['[', ']', '\x7b', '"', 'n', 't', 'f'] := by
  constructor
  · cases space : isSpace c with
    | false => rfl
    | true =>
        simp only [isSpace, Bool.or_eq_true, decide_eq_true_eq] at space
        rcases space with ((rfl | rfl) | rfl) | rfl <;> revert digit <;> decide
  · intro mark
    simp only [List.mem_cons, List.not_mem_nil, or_false] at mark
    rcases mark with rfl | rfl | rfl | rfl | rfl | rfl | rfl <;> revert digit <;> decide

/-- A value begins with no blank, nor as the end of an array does. -/
theorem Spells.exists_cons {json : Json} (spelled : Spells json characters) :
    ∃ c more, characters = c :: more ∧ isSpace c = false ∧ c ≠ ']' := by
  cases spelled with
  | int n _ =>
      obtain ⟨c, more, digits, digit⟩ := exists_digits_cons n
      have other := not_mark_of_digit digit
      exact ⟨c, more, digits, other.1, by simp_all⟩
  | _ => exact ⟨_, _, rfl, by decide, by decide⟩

theorem SpellsItems.opens {items : List Json} (spelled : SpellsItems items characters)
    (rest : List Char) : ∀ more, skipSpace (characters ++ rest) ≠ ']' :: more := by
  cases spelled with
  | last spaces spelled _ | more spaces spelled _ =>
      obtain ⟨c, more, rfl, notSpace, notEnd⟩ := spelled.exists_cons
      simp [skipSpace_append spaces, notSpace, notEnd]

theorem SpellsMembers.opens {members : List (String × Json)}
    (spelled : SpellsMembers members characters) (rest : List Char) :
    ∀ more, skipSpace (characters ++ rest) ≠ '\x7d' :: more := by
  cases spelled with
  | last spaces _ _ _ | more spaces _ _ _ =>
      simp [skipSpace_append spaces, stringChars, isSpace]

/-- The digits of a number are read as its literal. -/
theorem scalar?_digits {n : Int} (fits : (Integer.Bounds.signed 64).Contains n)
    (ends : EndsNumber rest) :
    scalar? steps (Integer.digits n ++ rest) = some (.int n, rest) := by
  obtain ⟨c, more, digits, digit⟩ := exists_digits_cons n
  have notMark := (not_mark_of_digit digit).2
  have denoted : ofLiteral (Integer.text n) = .int n := by
    simp [ofLiteral, Numeral.ofLiteral?_text fits, int]
  have read := number?_digits n ends
  rw [scalar?.eq_def]
  split
  case h_5 =>
    rw [read]
    simpa [Integer.text] using denoted
  all_goals
    rename_i found
    rw [digits, List.cons_append, List.cons.injEq] at found
    simp [found.1] at notMark

theorem length_lt_of_stringChars {text : String} (enough : (stringChars text).length ≤ steps) :
    (text.toList.flatMap escapeChar).length < steps := by
  simp only [stringChars, List.cons_append, List.length_cons, List.length_append] at enough
  omega

/-- A string is read from what is written of it. -/
theorem scalar?_stringChars (text : String) (rest : List Char)
    (enough : (stringChars text).length ≤ steps) :
    scalar? steps (stringChars text ++ rest) = some (.string text, rest) := by
  have read := stringRest?_stringTail text.toList rest (length_lt_of_stringChars enough)
  simp [stringChars, scalar?, read, ofText]

theorem value?_of_scalar {json : Json} (notSpace : isSpace c = false) (notArray : c ≠ '[')
    (notObject : c ≠ '\x7b') (read : scalar? steps (c :: rest) = some (json, after)) :
    value? (steps + 1) depth (c :: rest) = some (json, after) := by
  simp [value?, notSpace, notArray, notObject, read]

theorem value?_append (spaces : AreSpaces before) :
    value? steps depth (before ++ rest) = value? steps depth rest := by
  rw [← value?_skipSpace, skipSpace_append spaces, value?_skipSpace]

theorem members?_append (spaces : AreSpaces before) :
    members? steps depth (before ++ rest) = members? steps depth rest := by
  rw [← members?_skipSpace, skipSpace_append spaces, members?_skipSpace]

section Sequences

variable {item : Json} {items : List Json} {members : List (String × Json)}

theorem items?_last (read : value? steps depth characters = some (item, rest))
    (ends : skipSpace rest = ']' :: after) :
    items? (steps + 1) depth characters = some ([item], after) := by
  simp [items?, read, ends]

theorem items?_more (read : value? steps depth characters = some (item, before))
    (goesOn : skipSpace before = ',' :: rest)
    (readMore : items? steps depth rest = some (items, after)) :
    items? (steps + 1) depth characters = some (item :: items, after) := by
  simp [items?, read, goesOn, readMore]

theorem members?_last {name : String} (enough : (stringChars name).length ≤ steps)
    (read : value? steps depth characters = some (item, rest))
    (ends : skipSpace rest = '\x7d' :: after) :
    members? (steps + 1) depth (stringChars name ++ ':' :: characters) =
      some (some [(name, item)], after) := by
  rw [stringChars, List.cons_append, List.cons_append, members?,
    skipSpace_cons_of_not_space (by decide)]
  simp [stringRest?_stringTail name.toList _ (length_lt_of_stringChars enough), read, ends, isSpace]

theorem members?_more {name : String} (enough : (stringChars name).length ≤ steps)
    (read : value? steps depth characters = some (item, before))
    (goesOn : skipSpace before = ',' :: rest)
    (readMore : members? steps depth rest = some (some members, after)) :
    members? (steps + 1) depth (stringChars name ++ ':' :: characters) =
      some (some ((name, item) :: members), after) := by
  rw [stringChars, List.cons_append, List.cons_append, members?,
    skipSpace_cons_of_not_space (by decide)]
  simp [stringRest?_stringTail name.toList _ (length_lt_of_stringChars enough), read, goesOn,
    readMore, isSpace]

end Sequences

mutual

/-- A value is read back from what is written of it. -/
theorem value?_of_spells {json : Json} {characters rest : List Char} {steps depth : Nat}
    (spelled : Spells json characters) (deep : json.depth ≤ depth)
    (enough : 2 * characters.length ≤ steps) (ends : EndsNumber rest) :
    value? steps depth (characters ++ rest) = some (json, rest) := by
  obtain ⟨c, more, written, _⟩ := spelled.exists_cons
  obtain ⟨steps, rfl⟩ : ∃ before, steps = before + 1 := by
    rw [written, List.length_cons] at enough
    exact Nat.exists_eq_add_one.2 (by omega)
  cases spelled with
  | null | yes | no => simp [value?, scalar?, isSpace, Text.strip?]
  | int n fits =>
      obtain ⟨c, more, digits, digit⟩ := exists_digits_cons n
      have other := not_mark_of_digit digit
      have read : scalar? steps (Integer.digits n ++ rest) = some (.int n, rest) :=
        scalar?_digits fits ends
      rw [digits] at read ⊢
      exact value?_of_scalar other.1 (by simp_all) (by simp_all) read
  | string text =>
      have read := scalar?_stringChars text rest (by omega : _ ≤ steps)
      exact value?_of_scalar (by decide) (by decide) (by decide) read
  | emptyArray | emptyObject =>
      obtain ⟨depth, rfl⟩ := Nat.exists_eq_add_one.2 (Nat.lt_of_succ_le deep)
      simp [value?, isSpace]
  | array spelled =>
      obtain ⟨depth, rfl⟩ := Nat.exists_eq_add_one.2 (Nat.zero_lt_of_lt deep)
      rw [List.length_cons] at enough
      rw [Json.depth] at deep
      rw [List.cons_append, value?_array (spelled.opens rest),
        items?_of_spells spelled (by omega) (by omega) rest]
      rfl
  | object spelled =>
      obtain ⟨depth, rfl⟩ := Nat.exists_eq_add_one.2 (Nat.zero_lt_of_lt deep)
      rw [List.length_cons] at enough
      rw [Json.depth] at deep
      rw [List.cons_append, value?_object (spelled.opens rest),
        members?_of_spells spelled (by omega) (by omega) rest]
      rfl

theorem items?_of_spells {items : List Json} {characters : List Char} {steps depth : Nat}
    (spelled : SpellsItems items characters) (deep : itemsDepth items ≤ depth)
    (enough : 2 * characters.length ≤ steps) (rest : List Char) :
    items? steps depth (characters ++ rest) = some (items, rest) := by
  cases spelled with
  | @last item before characters after spacesBefore spelled spacesAfter =>
      simp only [List.length_append, List.length_singleton] at enough
      obtain ⟨steps, rfl⟩ := Nat.exists_eq_add_one.2 (by omega : 0 < steps)
      rw [itemsDepth] at deep
      have ends : EndsNumber (after ++ ']' :: rest) := endsNumber_of_mark spacesAfter (by decide)
      have read : value? steps depth (characters ++ (after ++ ']' :: rest)) =
          some (item, after ++ ']' :: rest) :=
        value?_of_spells spelled (by omega) (by omega) ends
      simp only [List.append_assoc, List.cons_append, List.nil_append]
      apply items?_last
      · rw [value?_append spacesBefore, read]
      · rw [skipSpace_append spacesAfter, skipSpace_cons_of_not_space (by decide)]
  | @more item items before characters more spacesBefore spelled later =>
      simp only [List.length_append, List.length_cons] at enough
      obtain ⟨steps, rfl⟩ := Nat.exists_eq_add_one.2 (by omega : 0 < steps)
      rw [itemsDepth] at deep
      have ends : EndsNumber (',' :: (more ++ rest)) :=
        endsNumber_of_mark (List.forall_mem_nil _) (by decide)
      have read : value? steps depth (characters ++ ',' :: (more ++ rest)) =
          some (item, ',' :: (more ++ rest)) :=
        value?_of_spells spelled (by omega) (by omega) ends
      have readMore : items? steps depth (more ++ rest) = some (items, rest) :=
        items?_of_spells later (by omega) (by omega) rest
      simp only [List.append_assoc, List.cons_append]
      exact items?_more ((value?_append spacesBefore).trans read)
        (skipSpace_cons_of_not_space (by decide)) readMore

theorem members?_of_spells {members : List (String × Json)} {characters : List Char}
    {steps depth : Nat} (spelled : SpellsMembers members characters)
    (deep : membersDepth members ≤ depth) (enough : 2 * characters.length ≤ steps)
    (rest : List Char) : members? steps depth (characters ++ rest) = some (some members, rest) := by
  cases spelled with
  | @last name value before gap characters after spacesBefore spaces spelled spacesAfter =>
      simp only [List.length_append, List.length_cons, List.length_nil] at enough
      obtain ⟨steps, rfl⟩ := Nat.exists_eq_add_one.2 (by omega : 0 < steps)
      rw [membersDepth] at deep
      have ends : EndsNumber (after ++ '\x7d' :: rest) := endsNumber_of_mark spacesAfter (by decide)
      have read : value? steps depth (characters ++ (after ++ '\x7d' :: rest)) =
          some (value, after ++ '\x7d' :: rest) :=
        value?_of_spells spelled (by omega) (by omega) ends
      simp only [List.append_assoc, List.cons_append, List.nil_append]
      rw [members?_append spacesBefore]
      exact members?_last (by omega) ((value?_append spaces).trans read)
        ((skipSpace_append spacesAfter).trans (skipSpace_cons_of_not_space (by decide)))
  | @more name value members before gap characters more spacesBefore spaces spelled later =>
      simp only [List.length_append, List.length_cons] at enough
      obtain ⟨steps, rfl⟩ := Nat.exists_eq_add_one.2 (by omega : 0 < steps)
      rw [membersDepth] at deep
      have ends : EndsNumber (',' :: (more ++ rest)) :=
        endsNumber_of_mark (List.forall_mem_nil _) (by decide)
      have read : value? steps depth (characters ++ ',' :: (more ++ rest)) =
          some (value, ',' :: (more ++ rest)) :=
        value?_of_spells spelled (by omega) (by omega) ends
      have readMore : members? steps depth (more ++ rest) = some (some members, rest) :=
        members?_of_spells later (by omega) (by omega) rest
      simp only [List.append_assoc, List.cons_append]
      rw [members?_append spacesBefore]
      exact members?_more (by omega) ((value?_append spaces).trans read)
        (skipSpace_cons_of_not_space (by decide)) readMore

end

/-- A document is read from whatever is written of it, if it is nested no deeper than the limit. -/
theorem readWithin_of_spells {json : Json} {limit : Nat} (spelled : Spells json characters)
    (within : json.depth ≤ limit) :
    readWithin limit (String.ofList characters) = some json := by
  have ends : EndsNumber [] := by
    simp [EndsNumber]
  have read : value? (2 * characters.length + 2) limit (characters ++ []) = some (json, []) :=
    value?_of_spells spelled within (by omega) ends
  rw [List.append_nil] at read
  simp [readWithin, read, skipSpace]

end Reading

section Writing

variable {json : Json} {limit : Nat}

/-- A document that can be read in all its parts, with numbers that are whole and fit into 64 bits. -/
inductive IsExact : Json → Prop
  | null : IsExact .null
  | bool (value : Bool) : IsExact (.bool value)
  | int (n : Int) (fits : (Integer.Bounds.signed 64).Contains n) : IsExact (.int n)
  | string (text : String) : IsExact (.string text)
  | array {items : List Json} (exact : ∀ item ∈ items, IsExact item) : IsExact (.array items)
  | object {members : List (String × Json)} (exact : ∀ member ∈ members, IsExact member.2) :
      IsExact (.object members)

theorem spells_compactItems (item : Json) (items : List Json)
    (spelled : ∀ other ∈ item :: items, Spells other (compactChars other)) :
    SpellsItems (item :: items) (compactItems (item :: items) ++ [']']) := by
  have none : AreSpaces [] := List.forall_mem_nil _
  rw [List.forall_mem_cons] at spelled
  induction items generalizing item with
  | nil => simpa [compactItems] using SpellsItems.last none spelled.1 none
  | cons next items ih =>
      rw [List.forall_mem_cons] at spelled
      simpa [compactItems] using SpellsItems.more none spelled.1 (ih next spelled.2)

theorem spells_compactMembers (member : String × Json) (members : List (String × Json))
    (spelled : ∀ other ∈ member :: members, Spells other.2 (compactChars other.2)) :
    SpellsMembers (member :: members) (compactMembers (member :: members) ++ ['\x7d']) := by
  have none : AreSpaces [] := List.forall_mem_nil _
  rw [List.forall_mem_cons] at spelled
  induction members generalizing member with
  | nil => simpa [compactMembers] using SpellsMembers.last none none spelled.1 none
  | cons next members ih =>
      rw [List.forall_mem_cons] at spelled
      simpa [compactMembers] using SpellsMembers.more none none spelled.1 (ih next spelled.2)

/-- The compact layout keeps to the grammar. -/
theorem IsExact.spells_compactChars (exact : json.IsExact) : Spells json (compactChars json) := by
  induction exact with
  | null => exact .null
  | bool value =>
      cases value
      · exact .no
      · exact .yes
  | int n fits =>
      rw [Json.int, compactChars, Integer.text, String.toList_ofList]
      exact .int n fits
  | string text => exact .string text
  | @array items _ spelled =>
      cases items with
      | nil => exact .emptyArray
      | cons item items => exact .array (spells_compactItems item items spelled)
  | @object members _ spelled =>
      cases members with
      | nil => exact .emptyObject
      | cons member members => exact .object (spells_compactMembers member members spelled)

theorem areSpaces_lineBreak (level : Nat) : AreSpaces (lineBreak level) := by
  intro c member
  simp only [lineBreak, List.mem_cons, List.mem_replicate] at member
  rcases member with rfl | ⟨_, rfl⟩ <;> rfl

theorem spells_indentedItems (level : Nat) (item : Json) (items : List Json)
    (spelled : ∀ other ∈ item :: items, Spells other (indentedChars (level + 1) other)) :
    SpellsItems (item :: items)
      (indentedItems (level + 1) (item :: items) ++ lineBreak level ++ [']']) := by
  have inside := areSpaces_lineBreak (level + 1)
  rw [List.forall_mem_cons] at spelled
  induction items generalizing item with
  | nil =>
      simpa [indentedItems] using SpellsItems.last inside spelled.1 (areSpaces_lineBreak level)
  | cons next items ih =>
      rw [List.forall_mem_cons] at spelled
      simpa [indentedItems] using SpellsItems.more inside spelled.1 (ih next spelled.2)

theorem spells_indentedMembers (level : Nat) (member : String × Json)
    (members : List (String × Json))
    (spelled : ∀ other ∈ member :: members, Spells other.2 (indentedChars (level + 1) other.2)) :
    SpellsMembers (member :: members)
      (indentedMembers (level + 1) (member :: members) ++ lineBreak level ++ ['\x7d']) := by
  have inside := areSpaces_lineBreak (level + 1)
  have gap : AreSpaces [' '] := by
    simp [AreSpaces, isSpace]
  rw [List.forall_mem_cons] at spelled
  induction members generalizing member with
  | nil =>
      simpa [indentedMembers] using
        SpellsMembers.last inside gap spelled.1 (areSpaces_lineBreak level)
  | cons next members ih =>
      rw [List.forall_mem_cons] at spelled
      simpa [indentedMembers] using
        SpellsMembers.more inside gap spelled.1 (ih next spelled.2)

/-- The indented layout keeps to the grammar, whatever line it begins in. -/
theorem IsExact.spells_indentedChars (exact : json.IsExact) (level : Nat) :
    Spells json (indentedChars level json) := by
  induction exact generalizing level with
  | null => exact .null
  | bool value =>
      cases value
      · exact .no
      · exact .yes
  | int n fits =>
      rw [Json.int, indentedChars, Integer.text, String.toList_ofList]
      exact .int n fits
  | string text => exact .string text
  | @array items _ spelled =>
      cases items with
      | nil => exact .emptyArray
      | cons item items =>
          exact .array (spells_indentedItems level item items
            fun other member => spelled other member (level + 1))
  | @object members _ spelled =>
      cases members with
      | nil => exact .emptyObject
      | cons member members =>
          exact .object (spells_indentedMembers level member members
            fun other member => spelled other member (level + 1))

/-- A document is read back from its compact text. -/
theorem IsExact.readWithin_compact (exact : json.IsExact) (within : json.depth ≤ limit) :
    readWithin limit (compact json) = some json :=
  readWithin_of_spells exact.spells_compactChars within

/-- A document is read back from its indented text. -/
theorem IsExact.readWithin_indented (exact : json.IsExact) (within : json.depth ≤ limit) :
    readWithin limit (indented json) = some json :=
  readWithin_of_spells (exact.spells_indentedChars 0) within

end Writing

end IntentRouting.Json
