import IntentRouting.Proofs.Uri.Hierarchy
import IntentRouting.Uri.Path

/-!
# Which texts are URIs, and which parts make one

A text is a URI if nothing in it is forbidden and what stands before the colon that divides it is a
scheme (`IsUriText`). The parts that it is taken apart into satisfy `HasValidParts`, and all parts
that do are what their own text is taken apart into. Every way to make a URI ends in reading one or
changes nothing but the letters of its scheme, so these conditions describe all URIs there are.
-/

namespace IntentRouting.Uri

/-- The condition on a text that is a URI. -/
structure IsUriText (characters : List Char) : Prop where
  someText : characters ≠ []
  allowed : ∀ c ∈ characters, isForbidden c = false
  /-- If the first colon, slash, question mark or number sign is a colon, it ends a scheme. -/
  scheme : ∀ before after, characters = before ++ ':' :: after →
    (∀ c ∈ before, c ≠ ':' ∧ c ≠ '/' ∧ c ≠ '?' ∧ c ≠ '#') → isScheme before = true

/-- The condition on the parts of a URI. -/
structure HasValidParts (uri : Uri) : Prop where
  scheme : ∀ scheme ∈ uri.scheme, isScheme scheme.toList = true
  body : uri.body.IsReadable uri.scheme.isSome
  /-- A colon before the first slash of a path would end a scheme. -/
  noColon : uri.scheme = none → uri.authority = none →
    ':' ∉ uri.path.toList.takeWhile (· != '/')
  allowed : ∀ c ∈ uri.chars, isForbidden c = false
  somePart : uri ≠ ⟨none, .hierarchical none "" none, none⟩

/-- The ways to make a URI. -/
inductive IsMade : Uri → Prop where
  | parse {uri : Uri} {text : String} (made : Uri.parse text = .ok uri) : IsMade uri
  | hierarchical {uri : Uri} {scheme authority path : String}
      (made : Uri.hierarchical scheme authority path = .ok uri) : IsMade uri
  | content {uri : Uri} {authority path : String} (made : Uri.content authority path = .ok uri) :
      IsMade uri
  | normalizeScheme {uri : Uri} (base : IsMade uri) : IsMade uri.normalizeScheme
  | authorityRoot {uri root : Uri} (base : IsMade uri) (made : uri.authorityRoot? = some root) :
      IsMade root
  | append {uri longer : Uri} {segment : String} (base : IsMade uri)
      (made : uri.append segment = .ok longer) : IsMade longer

variable {uri : Uri} {characters scheme rest : List Char}

section Schemes

theorem endsScheme_eq_false_iff {c : Char} :
    endsScheme c = false ↔ c ≠ ':' ∧ c ≠ '/' ∧ c ≠ '?' := by
  simp [endsScheme, and_assoc]

theorem undivided_of_cutScheme? (cut : cutScheme? characters = some (scheme, rest)) :
    ∀ c ∈ scheme, endsScheme c = false := by
  rw [cutScheme?] at cut
  split at cut
  · cases cut
    intro c member
    simpa using List.mem_takeWhile_imp member
  · cases cut

/-- No scheme is cut off exactly if every colon has a slash, a question mark or a colon before it.
-/
theorem cutScheme?_eq_none_iff : cutScheme? characters = none ↔
    ∀ before after, characters = before ++ ':' :: after → ∃ c ∈ before, endsScheme c = true := by
  constructor
  · rintro none before after rfl
    cases found : before.any endsScheme with
    | true => simpa using found
    | false =>
        rw [cutScheme?_of_undivided (by simpa using found)] at none
        cases none
  · intro divided
    cases cut : cutScheme? characters with
    | none => rfl
    | some parts =>
        rcases divided _ _ (append_of_cutScheme? cut).symm with ⟨c, member, ends⟩
        rw [undivided_of_cutScheme? cut c member] at ends
        cases ends

end Schemes

section Texts

theorem cut_append_of_notMem {separator c : Char} {before after : List Char}
    (absent : separator ∉ before) (other : c ≠ separator) :
    (Text.cut separator (before ++ c :: after)).1 =
      before ++ c :: (Text.cut separator after).1 := by
  induction before with
  | nil => rw [List.nil_append, Text.cut, if_neg other, List.nil_append]
  | cons first before ih =>
      rw [List.mem_cons, not_or] at absent
      rw [List.cons_append, Text.cut, if_neg (Ne.symm absent.1), ih absent.2, List.cons_append]

theorem isUriText_of_parse {text : String} (read : parse text = .ok uri) :
    IsUriText text.toList := by
  have wellFormed := wellFormed_of_parse read
  have composed : uri.chars = text.toList := by
    rw [← text_of_parse read, Uri.text, String.toList_ofList]
  refine ⟨composed ▸ wellFormed.someText, ?_, ?_⟩
  · simp only [parse] at read
    split at read
    · cases read
    split at read
    · cases read
    rename_i allowed
    simpa using allowed
  · intro before after whole undivided
    have noMark : '#' ∉ before := fun member => (undivided _ member).2.2.2 rfl
    apply isScheme_of_parse read
    rw [whole, cut_append_of_notMem noMark (by decide)]
    apply cutScheme?_of_undivided
    intro c member
    rcases undivided c member with ⟨noColon, noSlash, noQuery, _⟩
    exact endsScheme_eq_false_iff.2 ⟨noColon, noSlash, noQuery⟩

theorem IsUriText.exists_parse {text : String} (isUri : IsUriText text.toList) :
    ∃ uri, parse text = .ok uri := by
  have allowed : text.toList.any isForbidden = false := by
    rw [List.any_eq_false]
    intro c member
    simp [isUri.allowed c member]
  have someText : text.toList.isEmpty = false := by
    simpa using isUri.someText
  simp only [parse, someText, allowed, Bool.false_eq_true, if_false]
  split
  · rename_i scheme rest cut
    have valid : isScheme scheme = true := by
      have whole := cut_append_marked '#' text.toList
      rw [← append_of_cutScheme? cut, List.append_assoc, List.cons_append] at whole
      apply isUri.scheme _ _ whole.symm
      intro c member
      have undivided := endsScheme_eq_false_iff.1 (undivided_of_cutScheme? cut c member)
      refine ⟨undivided.1, undivided.2.1, undivided.2.2, ?_⟩
      rintro rfl
      have noMark : '#' ∉ (Text.cut '#' text.toList).1 := Text.notMem_cut
      rw [← append_of_cutScheme? cut] at noMark
      exact noMark (List.mem_append_left _ member)
    rw [if_pos valid]
    exact ⟨_, rfl⟩
  · exact ⟨_, rfl⟩

/-- A text is read exactly if it is that of a URI. -/
theorem exists_parse_iff_isUriText {text : String} :
    (∃ uri, parse text = .ok uri) ↔ IsUriText text.toList :=
  ⟨fun ⟨_, read⟩ => isUriText_of_parse read, IsUriText.exists_parse⟩

end Texts

section Parts

/-- The path and the query of a body without authority hold no scheme exactly if no colon stands
before the first slash. -/
theorem cutScheme?_path_iff {path : List Char} {query : Option String} (noQuery : '?' ∉ path) :
    cutScheme? (path ++ marked ['?'] query) = none ↔ ':' ∉ path.takeWhile (· != '/') := by
  have noColon : ∀ before after, marked ['?'] query = before ++ ':' :: after → '?' ∈ before := by
    intro before after whole
    cases query with
    | none => simp [marked] at whole
    | some query =>
        cases before with
        | nil => simp [marked] at whole
        | cons first before =>
            have mark : '?' = first := by
              simpa [marked] using (List.cons.inj whole).1
            exact mark ▸ List.mem_cons_self ..
  rw [cutScheme?_eq_none_iff]
  constructor
  · intro divided member
    rcases List.eq_append_cons_of_mem member with ⟨before, after, inFront, absent⟩
    have whole : path = before ++ ':' :: (after ++ path.dropWhile (· != '/')) := by
      have parts := List.takeWhile_append_dropWhile (p := (· != '/')) (l := path)
      rw [inFront, List.append_assoc, List.cons_append] at parts
      exact parts.symm
    have inBody : path ++ marked ['?'] query =
        before ++ ':' :: (after ++ path.dropWhile (· != '/') ++ marked ['?'] query) :=
      (congrArg (· ++ marked ['?'] query) whole).trans (by simp)
    rcases divided _ _ inBody with ⟨c, inBefore, ends⟩
    have undivided : endsScheme c = false := by
      have beforeSlash : c ∈ path.takeWhile (· != '/') := by
        rw [inFront]
        exact List.mem_append_left _ inBefore
      refine endsScheme_eq_false_iff.2 ⟨?_, ?_, ?_⟩
      · rintro rfl
        exact absent inBefore
      · simpa using List.mem_takeWhile_imp beforeSlash
      · rintro rfl
        exact noQuery ((List.takeWhile_prefix _).subset beforeSlash)
    rw [undivided] at ends
    cases ends
  · intro absent before after whole
    rcases List.append_eq_append_iff.1 whole with ⟨more, inBefore, behind⟩ | ⟨more, inPath, behind⟩
    · refine ⟨'?', ?_, rfl⟩
      rw [inBefore]
      exact List.mem_append_right _ (noColon more after behind)
    · cases more with
      | nil =>
          have mark := noColon [] after behind.symm
          cases mark
      | cons first more =>
          rw [List.cons_append, List.cons.injEq] at behind
          rw [← behind.1] at inPath
          by_cases divided : ∃ c ∈ before, endsScheme c = true
          · exact divided
          · -- without a slash before it the colon stands before the first one
            have goesOn : ∀ c ∈ before, (c != '/') = true := by
              intro c member
              have goesOn := endsScheme_eq_false_iff.1
                (Bool.eq_false_iff.2 fun ends => divided ⟨c, member, ends⟩)
              simpa using goesOn.2.1
            rw [inPath, List.takeWhile_append_of_pos goesOn] at absent
            simp at absent

theorem cutScheme?_of_slash : cutScheme? ('/' :: rest) = none := by
  rw [cutScheme?_eq_none_iff]
  intro before after whole
  cases before with
  | nil => cases whole
  | cons first before =>
      rw [List.cons_append, List.cons.injEq] at whole
      exact ⟨first, List.mem_cons_self .., whole.1 ▸ rfl⟩

/-- A URI without scheme is not taken for one with a scheme. -/
theorem cutScheme?_body_iff (noScheme : uri.scheme = none)
    (readable : uri.body.IsReadable uri.scheme.isSome) : cutScheme? uri.body.chars = none ↔
      (uri.authority = none → ':' ∉ uri.path.toList.takeWhile (· != '/')) := by
  rcases uri with ⟨_, body, fragment⟩
  cases noScheme
  cases body with
  | specific text => cases readable.1
  | hierarchical authority path query =>
      cases authority with
      | none =>
          have noQuery : '?' ∉ path.toList := readable.2.2.2.1
          simpa [Body.chars, marked, Uri.authority, Uri.path] using cutScheme?_path_iff noQuery
      | some authority =>
          have slashes : (Body.hierarchical (some authority) path query).chars =
              '/' :: '/' :: (authority.toList ++ path.toList ++ marked ['?'] query) := rfl
          rw [slashes, cutScheme?_of_slash]
          simp [Uri.authority]

theorem IsRead.hasValidParts (read : uri.IsRead) : uri.HasValidParts := by
  have wellFormed := isRead_iff.1 read
  refine ⟨wellFormed.scheme, read.isReadable, ?_, ?_, ?_⟩
  · intro noScheme
    exact (cutScheme?_body_iff noScheme read.isReadable).1 (wellFormed.noScheme noScheme)
  · rcases read with ⟨text, parsed⟩
    have composed : uri.chars = text.toList := by
      rw [← text_of_parse parsed, Uri.text, String.toList_ofList]
    rw [composed]
    exact (isUriText_of_parse parsed).allowed
  · rintro rfl
    exact wellFormed.someText rfl

theorem HasValidParts.chars_ne_nil (valid : uri.HasValidParts) : uri.chars ≠ [] := by
  intro nothing
  apply valid.somePart
  have readable := valid.body
  rcases uri with ⟨scheme, body, fragment⟩
  rw [chars, List.append_eq_nil_iff, List.append_eq_nil_iff] at nothing
  rcases nothing with ⟨⟨noScheme, noBody⟩, noFragment⟩
  cases scheme with
  | some scheme => simp [schemeChars] at noScheme
  | none =>
      cases fragment with
      | some fragment => simp [marked] at noFragment
      | none =>
          cases body with
          | specific text => cases readable.1
          | hierarchical authority path query =>
              cases authority <;> cases query <;> simp_all [Body.chars, marked]

theorem HasValidParts.isRead (valid : uri.HasValidParts) : uri.IsRead := by
  refine isRead_iff.2 ⟨valid.scheme, ?_, (readBody_chars valid.body).symm, valid.body.noMark, ?_,
    valid.chars_ne_nil⟩
  · intro noScheme
    exact (cutScheme?_body_iff noScheme valid.body).2 (valid.noColon noScheme)
  · intro c member
    apply valid.allowed c
    rw [chars, List.append_assoc]
    exact List.mem_append_right _ member

theorem parse_eq_ok_iff {text : String} :
    parse text = .ok uri ↔ uri.HasValidParts ∧ uri.text = text := by
  constructor
  · intro read
    exact ⟨IsRead.hasValidParts ⟨text, read⟩, text_of_parse read⟩
  · rintro ⟨valid, rfl⟩
    exact valid.isRead.parse_text

end Parts

section Making

theorem isRead_of_authorityRoot? {root : Uri} (made : uri.authorityRoot? = some root) :
    root.IsRead := by
  rw [authorityRoot?.eq_def] at made
  split at made
  · rename_i scheme authority _ _
    rw [parse?] at made
    cases read : parse (scheme ++ "://" ++ authority) with
    | error fault => simp [read, Except.toOption] at made
    | ok found =>
        simp only [read, Except.toOption, Option.some.injEq] at made
        exact ⟨_, made ▸ read⟩
  · cases made

/-- Whatever makes a URI makes one that is read from its own text. -/
theorem IsMade.isRead (made : IsMade uri) : uri.IsRead := by
  induction made with
  | parse made => exact ⟨_, made⟩
  | hierarchical made => exact ⟨_, made⟩
  | content made => exact ⟨_, made⟩
  | normalizeScheme base ih => exact ih.normalizeScheme
  | authorityRoot base made ih => exact isRead_of_authorityRoot? made
  | append base made ih => exact ⟨_, made⟩

/-- A text is read exactly if it satisfies the condition on texts, and then as exactly those valid
parts that it is composed of. So all valid parts are read again from their text, and they are the
parts of all URIs that can be made in any way. -/
theorem parse_accepts_and_keeps :
    (∀ text, (∃ uri, parse text = .ok uri) ↔ IsUriText text.toList) ∧
      (∀ text uri, parse text = .ok uri ↔ uri.HasValidParts ∧ uri.text = text) ∧
        ∀ uri, IsMade uri ↔ uri.HasValidParts := by
  refine ⟨fun _ => exists_parse_iff_isUriText, fun _ _ => parse_eq_ok_iff, ?_⟩
  intro uri
  constructor
  · intro made
    exact made.isRead.hasValidParts
  · intro valid
    exact .parse valid.isRead.parse_text

end Making

end IntentRouting.Uri
