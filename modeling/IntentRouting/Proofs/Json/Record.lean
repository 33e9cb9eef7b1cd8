import IntentRouting.Json.Record
import IntentRouting.Proofs.Json.Tokens

/-!
# Fields of a document

What a record writes of its fields is what it says about them again: each field is given under its name
(`slots?_object`), an optional one is null or given (`Slot.optional_ofOption`), and a tagged value has
its tag before its content, so that nothing is held back (`Tagged.ofJson?_object`).
-/

namespace IntentRouting.Json

variable {α : Type}

section Depth

variable {depth : Nat}

theorem depth_le_of_mem_items (items : List Json) :
    ∀ item ∈ items, item.depth ≤ itemsDepth items := by
  induction items with
  | nil => exact List.forall_mem_nil _
  | cons first items ih =>
      rw [List.forall_mem_cons, itemsDepth]
      exact ⟨Nat.le_max_left .., fun item later => (ih item later).trans (Nat.le_max_right ..)⟩

theorem depth_le_of_mem_members (members : List (String × Json)) :
    ∀ member ∈ members, member.2.depth ≤ membersDepth members := by
  induction members with
  | nil => exact List.forall_mem_nil _
  | cons first members ih =>
      rw [List.forall_mem_cons, membersDepth]
      exact ⟨Nat.le_max_left .., fun member later => (ih member later).trans (Nat.le_max_right ..)⟩

/-- What an array holds is nested less deeply. -/
theorem depth_lt_of_array {items : List Json} (within : (array items).depth ≤ depth) :
    ∀ item ∈ items, item.depth < depth := by
  rw [Json.depth] at within
  exact fun item given => Nat.lt_of_le_of_lt (depth_le_of_mem_items items item given) within

theorem depth_lt_of_object {members : List (String × Json)}
    (within : (object members).depth ≤ depth) : ∀ member ∈ members, member.2.depth < depth := by
  rw [Json.depth] at within
  exact fun member given =>
    Nat.lt_of_le_of_lt (depth_le_of_mem_members members member given) within

end Depth

section Slots

variable {members : List (String × Json)} {member : String × Json}

theorem valuesOf_of_notMem {name : String} (absent : name ∉ members.map (·.1)) :
    valuesOf name members = [] := by
  simp only [List.mem_map, not_exists, not_and] at absent
  simpa [valuesOf] using fun name' value given same => absent (name', value) given same

theorem slot?_of_mem (distinct : (members.map (·.1)).Nodup) (given : member ∈ members) :
    slot? members member.1 = some (.given member.2) := by
  obtain ⟨earlier, later, rfl⟩ := List.append_of_mem given
  rw [List.map_append, List.map_cons, List.nodup_append, List.nodup_cons] at distinct
  have before : member.1 ∉ earlier.map (·.1) := fun present =>
    distinct.2.2 member.1 present member.1 (List.mem_cons_self ..) rfl
  have values : valuesOf member.1 (earlier ++ member :: later) = [member.2] := by
    have none := valuesOf_of_notMem before
    have noMore := valuesOf_of_notMem distinct.2.1.1
    rw [valuesOf] at none noMore ⊢
    simp [none, noMore]
  simp [slot?, values]

/-- An object with names that differ gives each of its fields. -/
theorem slots?_object {names : List String} (distinct : names.Nodup)
    (named : members.map (·.1) = names) :
    slots? names (.object members) = some (members.map fun member => .given member.2) := by
  subst named
  have given (others : List (String × Json)) (among : ∀ member ∈ others, member ∈ members) :
      (others.map (·.1)).mapM (slot? members) =
        some (others.map fun member => .given member.2) := by
    induction others with
    | nil => rfl
    | cons member others ih =>
        rw [List.forall_mem_cons] at among
        simp [slot?_of_mem distinct among.1, ih among.2]
  exact given members fun _ member => member

/-- A field that is written as null or by its value is read back, if no value is written as null. -/
theorem Slot.optional_ofOption {decode : Json → Option α} {encode : α → Json} {field : Option α}
    (someValue : ∀ value, encode value ≠ .null)
    (read : ∀ value ∈ field, decode (encode value) = some value) :
    Slot.optional decode (.given (.ofOption encode field)) = some field := by
  cases field with
  | none => rfl
  | some value =>
      have notNull := someValue value
      have readValue := read value rfl
      rw [ofOption, Slot.optional.eq_def]
      split
      · rename_i found
        rw [Slot.given.injEq] at found
        exact absurd found notNull
      · rename_i found
        cases found
        rw [readValue]
        rfl
      · rename_i found
        cases found
      · rename_i found
        cases found

theorem Slot.of_optional {decode : Json → Option α} {slot : Slot} {field : Option α}
    (read : slot.optional decode = some field) :
    ∀ value ∈ field, ∃ json, decode json = some value := by
  rw [Slot.optional.eq_def] at read
  split at read
  · cases read
    rintro _ ⟨⟩
  · rename_i json _
    obtain ⟨value, decoded, rfl⟩ := Option.map_eq_some_iff.1 read
    rintro _ ⟨⟩
    exact ⟨json, decoded⟩
  · cases read
    rintro _ ⟨⟩
  · cases read

theorem Slot.required_given {decode : Json → Option α} {json : Json} :
    (Slot.given json).required decode = decode json :=
  rfl

theorem Slot.of_required {decode : Json → Option α} {slot : Slot} {value : α}
    (read : slot.required decode = some value) : ∃ json, decode json = some value := by
  cases slot with
  | given json => exact ⟨json, read⟩
  | absent | cut => cases read

theorem Slot.optional_string (text : Option String) :
    Slot.optional string? (.given (.optionalString text)) = some text := by
  apply Slot.optional_ofOption
  · simp
  · simp [string?]

end Slots

section Values

variable {decode : Json → Option α} {encode : α → Json} {values : List α}

theorem mapM_map {β : Type} {step : β → Option α} {make : α → β}
    (back : ∀ value ∈ values, step (make value) = some value) :
    (values.map make).mapM step = some values := by
  induction values with
  | nil => rfl
  | cons value values ih =>
      rw [List.forall_mem_cons] at back
      simp [back.1, ih back.2]

theorem of_mapM {β : Type} {step : β → Option α} {items : List β}
    (read : items.mapM step = some values) :
    ∀ value ∈ values, ∃ item ∈ items, step item = some value := by
  induction items generalizing values with
  | nil =>
      cases read
      exact List.forall_mem_nil _
  | cons item items ih =>
      simp only [List.mapM_cons, Option.bind_eq_bind, Option.pure_def, Option.bind_eq_some_iff,
        Option.some.injEq] at read
      obtain ⟨first, decoded, others, readOthers, rfl⟩ := read
      rw [List.forall_mem_cons]
      refine ⟨⟨item, List.mem_cons_self .., decoded⟩, fun value member => ?_⟩
      obtain ⟨other, later, decoded⟩ := ih readOthers value member
      exact ⟨other, List.mem_cons_of_mem item later, decoded⟩

theorem of_list? {json : Json} (read : json.list? decode = some values) :
    ∀ value ∈ values, ∃ item, decode item = some value := by
  cases json with
  | array items =>
      intro value member
      obtain ⟨item, _, decoded⟩ := of_mapM read value member
      exact ⟨item, decoded⟩
  | _ => cases read

theorem list?_list (read : ∀ value ∈ values, decode (encode value) = some value) :
    (Json.list encode values).list? decode = some values :=
  mapM_map read

theorem list?_strings (texts : List String) : (strings texts).list? string? = some texts :=
  list?_list fun _ _ => rfl

/-- A number is read back within bounds that 64 bits can hold. -/
theorem int?_int {bounds : Integer.Bounds} {n : Int} (within : bounds.Contains n)
    (fits : (Integer.Bounds.signed 64).Contains n) : (Json.int n).int? bounds = some n := by
  simp [int, int?, Numeral.ofLiteral?_text fits, within]

end Values

section Tagged

variable {tagName contentName tag : String} {content : Json}

/-- A tag that stands before its content says how this is read, and nothing is held back. -/
theorem Tagged.ofJson?_object (apart : tagName ≠ contentName) (tags : List String) (isHeld : Bool) :
    Tagged.ofJson? tagName contentName tags isHeld
        (.object [(tagName, .string tag), (contentName, content)]) =
      some ⟨tag, content, isHeld⟩ := by
  have other := Ne.symm apart
  simp [Tagged.ofJson?, slot?, valuesOf, standsBefore, Slot.required, tagOfMember?, alternative?,
    apart, other]

end Tagged

end IntentRouting.Json
