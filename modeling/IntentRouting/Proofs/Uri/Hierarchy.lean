import IntentRouting.Proofs.Uri.Grammar
import Mathlib.Data.List.TakeWhile

/-!
# The parts of a body

A body is what its own text is taken apart into exactly if it satisfies `Uri.Body.IsReadable`. So a
URI with a scheme is one that was read as soon as its scheme, its body and its characters are in
order (`isRead_iff_isReadable`), and the URI of the scheme and the authority alone is always one.
-/

namespace IntentRouting.Uri

variable {uri : Uri} {body : Body} {afterScheme : Bool} {characters : List Char}
  {scheme authority : String}

section Bodies

theorem isReadable_readHierarchy {query : Option String} (noQuery : '?' ∉ characters)
    (noMark : '#' ∉ characters) (noMarkBehind : ∀ text ∈ query, '#' ∉ text.toList)
    (leads : afterScheme = true → characters.head? = some '/') :
    (readHierarchy characters query).IsReadable afterScheme := by
  unfold readHierarchy
  split
  · rename_i rest
    have inAuthority : ∀ c ∈ rest.takeWhile (· != '/'), c ∈ rest ∧ c ≠ '/' := by
      intro c member
      exact ⟨(List.takeWhile_prefix _).subset member, by simpa using List.mem_takeWhile_imp member⟩
    have inPath : ∀ c ∈ rest.dropWhile (· != '/'), c ∈ rest :=
      fun c member => (List.dropWhile_suffix _).subset member
    simp only [List.mem_cons, not_or] at noQuery noMark
    refine ⟨?_, by rintro ⟨⟩, by rintro ⟨⟩, ?_, ?_, noMarkBehind⟩
    · rintro _ ⟨⟩
      simp only [String.toList_ofList]
      refine ⟨fun member => (inAuthority _ member).2 rfl,
        fun member => noQuery.2.2 (inAuthority _ member).1,
        fun member => noMark.2.2 (inAuthority _ member).1, ?_⟩
      cases path : rest.dropWhile (· != '/') with
      | nil => exact .inl rfl
      | cons first more =>
          right
          have stops := List.head?_dropWhile_not (· != '/') rest
          simpa [path] using stops
    · rw [String.toList_ofList]
      exact fun member => noQuery.2.2 (inPath _ member)
    · rw [String.toList_ofList]
      exact fun member => noMark.2.2 (inPath _ member)
  · rename_i noSlashes
    refine ⟨by rintro _ ⟨⟩, ?_, ?_, ?_, ?_, noMarkBehind⟩
    · rintro _ ⟨rest, whole⟩
      rw [String.toList_ofList] at whole
      exact noSlashes rest whole.symm
    · intro _ after
      rw [String.toList_ofList]
      exact leads after
    · rwa [String.toList_ofList]
    · rwa [String.toList_ofList]

theorem isReadable_readBody (noMark : '#' ∉ characters) :
    (readBody afterScheme characters).IsReadable afterScheme := by
  rw [readBody]
  split
  · rename_i specific
    rw [Bool.and_eq_true, bne_iff_ne] at specific
    refine ⟨specific.1, ?_, ?_⟩
    · rw [String.toList_ofList]
      exact specific.2
    · rwa [String.toList_ofList]
  · rename_i hierarchical
    have whole := Text.cut_append_rest '?' characters
    have noQuery : '?' ∉ (Text.cut '?' characters).1 := Text.notMem_cut
    have within : ∀ c ∈ (Text.cut '?' characters).1, c ∈ characters :=
      fun c => Text.mem_of_mem_cut
    apply isReadable_readHierarchy noQuery (fun member => noMark (within _ member))
    · intro text given member
      rw [Option.mem_def, Option.map_eq_some_iff] at given
      rcases given with ⟨query, cut, rfl⟩
      rw [String.toList_ofList] at member
      have behind : '#' ∈ (Text.cut '?' characters).1 ++
          ((Text.cut '?' characters).2.map ('?' :: ·)).getD [] := by
        simp [cut, member]
      rw [whole] at behind
      exact noMark behind
    · rintro rfl
      have slash : characters.head? = some '/' := by simpa using hierarchical
      cases characters with
      | nil => cases slash
      | cons first rest =>
          rw [List.head?_cons, Option.some.injEq] at slash
          rw [slash, Text.cut, if_neg (by decide), List.head?_cons]

/-- A body is structured if there is no scheme or it begins with a slash. -/
theorem readBody_of_slash {head : List Char} {query : Option String} (noQuery : '?' ∉ head)
    (leads : afterScheme = true → head.head? = some '/') :
    readBody afterScheme (head ++ marked ['?'] query) = readHierarchy head query := by
  have structured : ¬(afterScheme && (head ++ marked ['?'] query).head? != some '/') = true := by
    cases afterScheme with
    | false => simp
    | true => simp [List.head?_append, leads rfl]
  have again : (query.map String.toList).map String.ofList = query := by
    cases query <;> simp
  rw [readBody, if_neg structured, cut_marked noQuery]
  dsimp only
  rw [again]

theorem readHierarchy_of_authority {path : List Char} (noSlash : '/' ∉ authority.toList)
    (leads : path = [] ∨ path.head? = some '/') (query : Option String) :
    readHierarchy ('/' :: '/' :: authority.toList ++ path) query =
      .hierarchical (some authority) (String.ofList path) query := by
  have goesOn : ∀ c ∈ authority.toList, (c != '/') = true := by
    intro c member
    rw [bne_iff_ne]
    rintro rfl
    exact noSlash member
  have ends : path.takeWhile (· != '/') = [] ∧ path.dropWhile (· != '/') = path := by
    cases path with
    | nil => exact ⟨rfl, rfl⟩
    | cons first rest =>
        have slash : first = '/' := by simpa using leads
        simp [slash]
  rw [List.cons_append, List.cons_append, readHierarchy, List.takeWhile_append_of_pos goesOn,
    List.dropWhile_append_of_pos goesOn, ends.1, ends.2, List.append_nil, String.ofList_toList]

/-- A body is taken apart into what it was composed of. -/
theorem readBody_chars (readable : body.IsReadable afterScheme) :
    readBody afterScheme body.chars = body := by
  cases body with
  | specific text =>
      rcases readable with ⟨rfl, noSlash, _⟩
      simp [readBody, Body.chars, noSlash]
  | hierarchical authority path query =>
      rcases readable with ⟨inAuthority, noSlashes, leads, noQuery, _⟩
      cases authority with
      | none =>
          rw [Body.chars, marked, List.nil_append, readBody_of_slash noQuery (leads rfl),
            readHierarchy.eq_def]
          split
          · rename_i rest whole
            exact absurd ⟨rest, whole.symm⟩ (noSlashes rfl)
          · rw [String.ofList_toList]
      | some authority =>
          rcases inAuthority authority rfl with ⟨noSlash, noQuery', _, follows⟩
          have head : '?' ∉ '/' :: '/' :: authority.toList ++ path.toList := by
            simp [noQuery, noQuery']
          have slashes : marked ['/', '/'] (some authority) = '/' :: '/' :: authority.toList := rfl
          rw [Body.chars, slashes, readBody_of_slash head (fun _ => rfl),
            readHierarchy_of_authority noSlash follows, String.ofList_toList]

end Bodies

section Reading

theorem IsRead.isReadable (read : uri.IsRead) : uri.body.IsReadable uri.scheme.isSome := by
  have wellFormed := isRead_iff.1 read
  rw [wellFormed.body]
  exact isReadable_readBody wellFormed.noMark

theorem Body.IsReadable.noMark (readable : body.IsReadable afterScheme) : '#' ∉ body.chars := by
  cases body with
  | specific text => exact readable.2.2
  | hierarchical authority path query =>
      rcases readable with ⟨inAuthority, _, _, _, inPath, inQuery⟩
      have authorityPlain : '#' ∉ marked ['/', '/'] authority := by
        cases authority with
        | none => simp [marked]
        | some authority => simp [marked, (inAuthority authority rfl).2.2.1]
      have queryPlain : '#' ∉ marked ['?'] query := by
        cases query with
        | none => simp [marked]
        | some query => simp [marked, inQuery query rfl]
      simp [Body.chars, authorityPlain, inPath, queryPlain]

/-- A URI with a scheme was read exactly if its parts are in order. -/
theorem isRead_iff_isReadable (found : uri.scheme = some scheme) :
    uri.IsRead ↔ isScheme scheme.toList = true ∧ uri.body.IsReadable true ∧
      ∀ c ∈ uri.body.chars ++ marked ['#'] uri.fragment, isForbidden c = false := by
  constructor
  · intro read
    have wellFormed := isRead_iff.1 read
    have readable := read.isReadable
    rw [found] at readable
    exact ⟨wellFormed.scheme scheme found, readable, wellFormed.allowed⟩
  · rintro ⟨valid, readable, allowed⟩
    apply isRead_iff.2
    refine ⟨?_, ?_, ?_, readable.noMark, allowed, ?_⟩
    · intro other given
      rw [found] at given
      cases given
      exact valid
    · rw [found]
      rintro ⟨⟩
    · rw [found]
      exact (readBody_chars readable).symm
    · simp [chars, found, schemeChars]

/-- The URI of the scheme and the authority of another one. -/
def root (scheme authority : String) : Uri :=
  ⟨some scheme, .hierarchical (some authority) "" none, none⟩

/-- What was read with a scheme and an authority has a root with the same scheme and authority. -/
theorem IsRead.authorityRoot? (read : uri.IsRead) (schemed : uri.scheme = some scheme)
    (named : uri.authority = some authority) :
    uri.authorityRoot? = some (root scheme authority) := by
  rcases (isRead_iff_isReadable schemed).1 read with ⟨valid, readable, allowed⟩
  have rootRead : (root scheme authority).IsRead := by
    rcases uri with ⟨_, body, fragment⟩
    cases body with
    | specific text => cases named
    | hierarchical authority' path query =>
        cases named
        rcases readable with ⟨inAuthority, _⟩
        rcases inAuthority authority rfl with ⟨noSlash, noQuery, noMark, _⟩
        refine (isRead_iff_isReadable rfl).2 ⟨valid, ?_, ?_⟩
        · simp [root, Body.IsReadable, noSlash, noQuery, noMark]
        · intro c member
          apply allowed c
          simp only [root, Body.chars, marked, String.toList_empty, List.append_nil] at member
          exact List.mem_append_left _ (List.mem_append_left _ (List.mem_append_left _ member))
  have text : scheme ++ "://" ++ authority = (root scheme authority).text := by
    rw [← String.toList_inj]
    simp [root, Uri.text, Uri.chars, schemeChars, Body.chars, marked]
  rw [Uri.authorityRoot?, schemed, named]
  dsimp only
  rw [text, parse?, rootRead.parse_text, Except.toOption]

end Reading

end IntentRouting.Uri
