import IntentRouting.Proofs.Text.Cutting
import IntentRouting.Proofs.Uri.Reading

/-!
# Which URIs are read

A URI is the result of reading exactly if its parts are what its own text is taken apart into
(`isRead_iff`). So the readers and writers of URIs are compared by their parts: a change of the
scheme, or the scheme alone, gives a URI that is read again.
-/

namespace IntentRouting.Uri

variable {uri : Uri} {scheme head rest : List Char} {fragment : Option String}

section Schemes

/-- A character that may stand in a scheme behind its first one. -/
def isSchemeChar (c : Char) : Bool :=
  Text.isAsciiAlphanumeric c || c = '+' || c = '-' || c = '.'

theorem isSchemeChar_of_mem (valid : isScheme scheme = true) {c : Char} (member : c ∈ scheme) :
    isSchemeChar c = true := by
  cases scheme with
  | nil => cases member
  | cons first more =>
      rw [isScheme, Bool.and_eq_true, List.all_eq_true] at valid
      rcases List.mem_cons.1 member with rfl | later
      · simp [isSchemeChar, Text.isAsciiAlphanumeric, valid.1]
      · exact valid.2 c later

theorem toNat_lt_of_isSchemeChar {c : Char} (valid : isSchemeChar c = true) : c.toNat < 128 := by
  have below {high : Char} (order : c ≤ high) (small : high.toNat < 128) : c.toNat < 128 :=
    Nat.lt_of_le_of_lt (UInt32.le_iff_toNat_le.1 order) small
  simp only [isSchemeChar, Text.isAsciiAlphanumeric, Text.isAsciiLetter, Text.isAsciiDigit,
    Bool.or_eq_true, Bool.and_eq_true, decide_eq_true_eq] at valid
  rcases valid with ((((⟨_, upper⟩ | ⟨_, lower⟩) | ⟨_, digit⟩) | rfl) | rfl) | rfl
  · exact below upper (by decide)
  · exact below lower (by decide)
  · exact below digit (by decide)
  · decide
  · decide
  · decide

/-- The characters of a scheme neither divide a URI nor are they forbidden in one. -/
theorem of_isSchemeChar {c : Char} (valid : isSchemeChar c = true) :
    isForbidden c = false ∧ endsScheme c = false ∧ c ≠ '#' := by
  have all : ∀ n : Fin 128, isSchemeChar (Char.ofNat n) = true →
      isForbidden (Char.ofNat n) = false ∧ endsScheme (Char.ofNat n) = false ∧
        Char.ofNat n ≠ '#' := by
    decide
  have small := toNat_lt_of_isSchemeChar valid
  rw [← Char.ofNat_toNat c] at valid ⊢
  exact all ⟨c.toNat, small⟩ valid

theorem isForbidden_of_isScheme (valid : isScheme scheme = true) :
    ∀ c ∈ scheme, isForbidden c = false :=
  fun _ member => (of_isSchemeChar (isSchemeChar_of_mem valid member)).1

theorem notMem_of_isScheme (valid : isScheme scheme = true) : '#' ∉ scheme :=
  fun member => (of_isSchemeChar (isSchemeChar_of_mem valid member)).2.2 rfl

theorem colon_notMem_of_isScheme (valid : isScheme scheme = true) : ':' ∉ scheme := by
  intro member
  have divides := (of_isSchemeChar (isSchemeChar_of_mem valid member)).2.1
  cases divides

theorem cutScheme?_of_undivided (undivided : ∀ c ∈ scheme, endsScheme c = false) :
    cutScheme? (scheme ++ ':' :: rest) = some (scheme, rest) := by
  have goesOn : ∀ c ∈ scheme, (!endsScheme c) = true := by
    intro c member
    rw [undivided c member]
    rfl
  have ends : (!endsScheme ':') = false := rfl
  rw [cutScheme?, List.dropWhile_append_of_pos goesOn, List.takeWhile_append_of_pos goesOn,
    List.dropWhile_cons, List.takeWhile_cons, ends]
  simp

theorem cutScheme?_append (valid : isScheme scheme = true) :
    cutScheme? (scheme ++ ':' :: rest) = some (scheme, rest) :=
  cutScheme?_of_undivided fun _ member =>
    (of_isSchemeChar (isSchemeChar_of_mem valid member)).2.1

end Schemes

section Parse

theorem cut_marked {separator : Char} (absent : separator ∉ head) (text : Option String) :
    Text.cut separator (head ++ marked [separator] text) = (head, text.map String.toList) := by
  cases text with
  | none => rw [marked, List.append_nil, Text.cut_of_notMem absent, Option.map_none]
  | some text => exact Text.cut_append absent

/-- What is read of a text under a scheme. -/
theorem parse_withScheme (valid : isScheme scheme = true) (absent : '#' ∉ rest)
    (allowed : ∀ c ∈ rest ++ marked ['#'] fragment, isForbidden c = false) :
    parse (String.ofList (scheme ++ ':' :: rest ++ marked ['#'] fragment)) =
      .ok ⟨some (String.ofList scheme), readBody true rest, fragment⟩ := by
  have noMark : '#' ∉ scheme ++ ':' :: rest := by
    simp [notMem_of_isScheme valid, absent]
  have colon : isForbidden ':' = false := rfl
  have everywhere : (scheme ++ ':' :: rest ++ marked ['#'] fragment).any isForbidden = false := by
    rw [List.any_eq_false]
    intro c member
    rw [List.append_assoc, List.mem_append, List.cons_append, List.mem_cons] at member
    rcases member with inScheme | rfl | later
    · simp [isForbidden_of_isScheme valid c inScheme]
    · simp [colon]
    · simp [allowed c later]
  rw [parse, String.toList_ofList, everywhere, cut_marked noMark]
  dsimp only
  rw [cutScheme?_append valid]
  simp [valid]

theorem parse_withoutScheme (noScheme : cutScheme? head = none) (absent : '#' ∉ head)
    (allowed : ∀ c ∈ head ++ marked ['#'] fragment, isForbidden c = false)
    (someText : head ++ marked ['#'] fragment ≠ []) :
    parse (String.ofList (head ++ marked ['#'] fragment)) =
      .ok ⟨none, readBody false head, fragment⟩ := by
  have everywhere : (head ++ marked ['#'] fragment).any isForbidden = false := by
    rw [List.any_eq_false]
    intro c member
    simp [allowed c member]
  rw [parse, String.toList_ofList, everywhere, cut_marked absent]
  dsimp only
  rw [noScheme]
  simpa using someText

theorem isScheme_of_parse {text : String} (read : parse text = .ok uri)
    (cut : cutScheme? (Text.cut '#' text.toList).1 = some (scheme, rest)) :
    isScheme scheme = true := by
  simp only [parse, cut] at read
  split at read
  · cases read
  split at read
  · cases read
  split at read
  · assumption
  · cases read

/-- A text that is divided by a colon first is a URI exactly if a scheme stands before the colon. -/
theorem exists_parse_iff (undivided : ∀ c ∈ scheme, endsScheme c = false ∧ c ≠ '#')
    (noMark : '#' ∉ rest) (allowed : ∀ c ∈ rest, isForbidden c = false) :
    (∃ uri, parse (String.ofList (scheme ++ ':' :: rest)) = .ok uri) ↔ isScheme scheme = true := by
  constructor
  · rintro ⟨uri, read⟩
    have absent : '#' ∉ scheme ++ ':' :: rest := by
      have inScheme : '#' ∉ scheme := fun member => (undivided '#' member).2 rfl
      simp [inScheme, noMark]
    apply isScheme_of_parse read
    rw [String.toList_ofList, Text.cut_of_notMem absent]
    exact cutScheme?_of_undivided fun c member => (undivided c member).1
  · intro valid
    have read : parse (String.ofList (scheme ++ ':' :: rest ++ marked ['#'] none)) = _ :=
      parse_withScheme valid noMark (by simpa [marked] using allowed)
    rw [marked, List.append_nil] at read
    exact ⟨_, read⟩

/-- What holds of the parts of a URI that was read. -/
structure WellFormed (uri : Uri) : Prop where
  scheme : ∀ scheme ∈ uri.scheme, isScheme scheme.toList = true
  noScheme : uri.scheme = none → cutScheme? uri.body.chars = none
  body : uri.body = readBody uri.scheme.isSome uri.body.chars
  noMark : '#' ∉ uri.body.chars
  allowed : ∀ c ∈ uri.body.chars ++ marked ['#'] uri.fragment, isForbidden c = false
  someText : uri.chars ≠ []

theorem wellFormed_of_parse {text : String} (read : parse text = .ok uri) : uri.WellFormed := by
  have whole := cut_append_marked '#' text.toList
  have noMark : '#' ∉ (Text.cut '#' text.toList).1 := Text.notMem_cut
  have composed : uri.chars = text.toList := by
    rw [← text_of_parse read, Uri.text, String.toList_ofList]
  simp only [parse] at read
  split at read
  · cases read
  rename_i someText
  split at read
  · cases read
  rename_i allowed
  rw [Bool.not_eq_true, List.any_eq_false] at allowed
  have everywhere : ∀ c ∈ uri.chars, isForbidden c = false := by
    intro c member
    rw [composed] at member
    exact Bool.not_eq_true _ ▸ allowed c member
  have nonempty : uri.chars ≠ [] := by
    rw [composed]
    simpa using someText
  split at read
  · rename_i scheme rest cut
    split at read
    · rename_i valid
      cases read
      rw [← append_of_cutScheme? cut] at noMark
      refine ⟨?_, ?_, ?_, ?_, ?_, nonempty⟩
      · rintro _ ⟨⟩
        rwa [String.toList_ofList]
      · rintro ⟨⟩
      · rw [chars_readBody]
        rfl
      · rw [chars_readBody]
        intro member
        exact noMark (by simp [member])
      · intro c member
        apply everywhere c
        rw [chars, List.append_assoc, List.mem_append]
        exact .inr member
    · cases read
  · rename_i noScheme
    cases read
    refine ⟨?_, ?_, ?_, ?_, ?_, nonempty⟩
    · rintro _ ⟨⟩
    · intro _
      rwa [chars_readBody]
    · rw [chars_readBody]
      rfl
    · rwa [chars_readBody]
    · exact everywhere

theorem WellFormed.parse_text (wellFormed : uri.WellFormed) : parse uri.text = .ok uri := by
  rcases uri with ⟨scheme, body, fragment⟩
  have parts := wellFormed.body.symm
  cases scheme with
  | none =>
      have read := parse_withoutScheme (wellFormed.noScheme rfl) wellFormed.noMark
        wellFormed.allowed wellFormed.someText
      dsimp only [Option.isSome_none] at parts read
      rwa [parts] at read
  | some scheme =>
      have read := parse_withScheme (wellFormed.scheme scheme rfl) wellFormed.noMark
        wellFormed.allowed
      dsimp only [Option.isSome_some] at parts read
      rw [parts, String.ofList_toList] at read
      rw [← read, text, chars, schemeChars]
      simp

theorem isRead_iff : uri.IsRead ↔ uri.WellFormed :=
  ⟨fun ⟨_, read⟩ => wellFormed_of_parse read, fun wellFormed => ⟨_, wellFormed.parse_text⟩⟩

/-- A URI that was read is read again from its own text. -/
theorem IsRead.parse_text (read : uri.IsRead) : parse uri.text = .ok uri :=
  (isRead_iff.1 read).parse_text

theorem IsRead.chars_ne_nil (read : uri.IsRead) : uri.chars ≠ [] := (isRead_iff.1 read).someText

/-- The scheme of a URI that was read is a URI by itself. -/
theorem IsRead.parse_scheme (read : uri.IsRead) {scheme : String} (found : uri.scheme = some scheme) :
    parse (scheme ++ ":") = .ok ⟨some scheme, .specific "", none⟩ := by
  have valid := (isRead_iff.1 read).scheme scheme found
  have alone : parse (String.ofList (scheme.toList ++ ':' :: [] ++ marked ['#'] none)) =
      .ok ⟨some (String.ofList scheme.toList), readBody true [], none⟩ :=
    parse_withScheme valid (by simp) (by simp [marked])
  have text : String.ofList (scheme.toList ++ ':' :: [] ++ marked ['#'] none) = scheme ++ ":" := by
    simp [marked]
  rw [text, String.ofList_toList] at alone
  exact alone

theorem isScheme_asciiLower (valid : isScheme scheme = true) :
    isScheme (scheme.map Text.asciiLower) = true := by
  have letters : ∀ n : Fin 128, Text.isAsciiLetter (Char.ofNat n) = true →
      Text.isAsciiLetter (Text.asciiLower (Char.ofNat n)) = true := by
    decide
  have parts : ∀ n : Fin 128, isSchemeChar (Char.ofNat n) = true →
      isSchemeChar (Text.asciiLower (Char.ofNat n)) = true := by
    decide
  have part (c : Char) (member : c ∈ scheme) : isSchemeChar (Text.asciiLower c) = true := by
    have written := isSchemeChar_of_mem valid member
    have lower := parts ⟨c.toNat, toNat_lt_of_isSchemeChar written⟩
    rw [Char.ofNat_toNat] at lower
    exact lower written
  cases scheme with
  | nil => cases valid
  | cons first more =>
      have written := isSchemeChar_of_mem valid (List.mem_cons_self ..)
      have letter := letters ⟨first.toNat, toNat_lt_of_isSchemeChar written⟩
      rw [Char.ofNat_toNat] at letter
      rw [isScheme, Bool.and_eq_true] at valid
      rw [List.map_cons, isScheme, Bool.and_eq_true, List.all_eq_true]
      refine ⟨letter valid.1, ?_⟩
      intro c member
      rcases List.mem_map.1 member with ⟨origin, later, rfl⟩
      exact part origin (List.mem_cons_of_mem _ later)

/-- The URI with its scheme in lower case is one that is read. -/
theorem IsRead.normalizeScheme (read : uri.IsRead) : uri.normalizeScheme.IsRead := by
  have wellFormed := isRead_iff.1 read
  cases found : uri.scheme with
  | none =>
      have same : uri.normalizeScheme = uri := by
        rcases uri with ⟨scheme, body, fragment⟩
        cases found
        rfl
      rwa [same]
  | some scheme =>
      have body := wellFormed.body
      rw [found] at body
      have lower : uri.normalizeScheme =
          ⟨some (Text.onChars (·.map Text.asciiLower) scheme), uri.body, uri.fragment⟩ := by
        rw [Uri.normalizeScheme, found]
        rfl
      rw [lower, isRead_iff]
      refine ⟨?_, ?_, body, wellFormed.noMark, wellFormed.allowed, ?_⟩
      · rintro _ ⟨⟩
        rw [Text.onChars, String.toList_ofList]
        exact isScheme_asciiLower (wellFormed.scheme scheme found)
      · rintro ⟨⟩
      · simp [chars, schemeChars]

/-- The text of a URI begins with a scheme exactly if the URI has this scheme. -/
theorem IsRead.prefix_iff (read : uri.IsRead) (valid : isScheme scheme = true) :
    scheme ++ [':'] <+: uri.chars ↔ uri.scheme = some (String.ofList scheme) := by
  have wellFormed := isRead_iff.1 read
  rw [chars]
  constructor
  · intro leads
    cases found : uri.scheme with
    | none =>
        have noScheme := wellFormed.noScheme found
        have noMark : '#' ∉ scheme ++ [':'] := by
          simp [notMem_of_isScheme valid]
        have inBody : scheme ++ [':'] <+: uri.body.chars := by
          rw [found, schemeChars, List.nil_append] at leads
          cases fragment : uri.fragment with
          | none =>
              rwa [fragment, marked, List.append_nil] at leads
          | some text =>
              rw [fragment] at leads
              exact (Text.prefix_append_separator_iff noMark).1 leads
        rcases inBody with ⟨rest, body⟩
        rw [← body, List.append_assoc, List.singleton_append, cutScheme?_append valid] at noScheme
        cases noScheme
    | some scheme' =>
        rw [found, schemeChars] at leads
        rcases leads with ⟨rest, whole⟩
        have ours : Text.cut ':' (scheme ++ ':' :: rest) = (scheme, some rest) :=
          Text.cut_append (colon_notMem_of_isScheme valid)
        have theirs (after : List Char) :
            Text.cut ':' (scheme'.toList ++ ':' :: after) = (scheme'.toList, some after) :=
          Text.cut_append (colon_notMem_of_isScheme (wellFormed.scheme scheme' found))
        rw [List.append_assoc, List.singleton_append] at whole
        rw [whole] at ours
        rw [List.append_assoc, List.append_assoc, List.singleton_append, theirs] at ours
        rw [Prod.mk.injEq] at ours
        rw [← ours.1, String.ofList_toList]
  · intro found
    rw [found, schemeChars, String.toList_ofList, List.append_assoc]
    exact List.prefix_append _ _

theorem mem_body_of_authority {c : Char} (member : c ∈ marked ['/', '/'] uri.authority) :
    c ∈ uri.body.chars := by
  rw [authority] at member
  split at member
  · cases member
  · rename_i body
    rw [body, Body.chars]
    simp [member]

theorem mem_body_of_path {c : Char} (member : c ∈ uri.path.toList) : c ∈ uri.body.chars := by
  rw [path] at member
  split at member
  · cases member
  · rename_i body
    rw [body, Body.chars]
    simp [member]

theorem mem_body_of_query {c : Char} (member : c ∈ marked ['?'] uri.query) :
    c ∈ uri.body.chars := by
  rw [query] at member
  split at member
  · cases member
  · rename_i body
    rw [body, Body.chars]
    simp [member]

theorem IsRead.notMem_path (read : uri.IsRead) : '?' ∉ uri.path.toList := by
  have parts := (isRead_iff.1 read).body
  have absent : '?' ∉ (Text.cut '?' uri.body.chars).1 := Text.notMem_cut
  generalize uri.body.chars = characters at parts absent
  intro member
  rw [path] at member
  split at member
  · cases member
  rename_i authority path query body
  rw [body, readBody] at parts
  split at parts
  · cases parts
  dsimp only at parts
  rw [readHierarchy.eq_def] at parts
  split at parts
  · rename_i rest head
    cases parts
    rw [String.toList_ofList] at member
    have inRest := (List.dropWhile_suffix _).subset member
    exact absent (by simp [head, inRest])
  · cases parts
    rw [String.toList_ofList] at member
    exact absent member

end Parse

end IntentRouting.Uri
