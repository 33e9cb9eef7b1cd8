import IntentRouting.Proofs.Intent.Legible

/-!
# Data that is shorter than its link

Data is shorter than the link it is read from, if the link is one to an application or if its last
number sign begins a fragment. A scheme among the entries makes up for what the head lacks, but it is
no longer than the entries are. So no text is read as data that is this text, unless all of it is a
URI.
-/

namespace IntentRouting.Intent

open Text.Utf8 (size)

variable {back : Intent} {flags : LinkFlags} {head entries : List Char} {text : String} {limit : Nat}

theorem size_dataText?_le {scheme : Option String} {characters : List Char}
    (small : ∀ written ∈ scheme, size written.toList ≤ limit)
    (found : dataText? head scheme = some characters) : size characters ≤ size head + limit := by
  rw [dataText?] at found
  split at found
  · cases found
  · rename_i rest _ stripped
    have whole := Text.strip?_eq_some_iff.1 stripped
    have start : size intentPrefix = 7 := by decide
    have lead : size (intentPrefix ++ rest) = size intentPrefix + size rest := Text.Utf8.size_append
    rw [← whole, start] at lead
    split at found
    · rename_i written
      cases found
      have bound := small written rfl
      have colon : (':').utf8Size = 1 := rfl
      simp only [Text.Utf8.size_append, Text.Utf8.size_cons]
      omega
    · cases found
      omega
  · split at found
    · cases found
    · cases found
      omega

theorem eq_of_readData? {characters : Option (List Char)} {data : Uri}
    (read : readData? characters = .ok (some data)) : characters = some data.chars := by
  cases characters with
  | none => cases read
  | some characters =>
      rw [readData?] at read
      cases parsed : Uri.parse (String.ofList characters) with
      | error cause =>
          rw [parsed] at read
          cases read
      | ok found =>
          rw [parsed] at read
          cases read
          have text := Uri.text_of_parse parsed
          rw [Uri.text, String.ofList_inj] at text
          rw [text]

/-- Data in front of a fragment is shorter than the link by more than the mark between them. -/
theorem size_le_of_ofPlainLink (cut : cutFragment? text.toList = some (head, entries))
    (read : ofPlainLink text flags = .ok back) :
    ∀ data ∈ back.data, size data.chars + size fragmentStart ≤ size text.toList := by
  rcases (ofPlainLink_eq_ok_iff cut).1 read with ⟨parsed, found, fragment, data, rfl⟩
  have within := within_of_readFragment rfl rfl fragment
  have noData : (parsed.finish flags).data = none := by
    have same := filterIdentity_finish parsed flags
    simp only [filterIdentity, FilterIdentity.mk.injEq] at same
    exact same.2.1.trans within.data
  cases found with
  | none => simp [withData_none, noData]
  | some data =>
      rintro _ ⟨⟩
      have bound := size_dataText?_le within.scheme (eq_of_readData? ‹_›)
      have whole := (eq_append_of_cutFragment? cut).1
      simp only [whole, Text.Utf8.size_append]
      omega

/-- Data that a link to an application names is shorter than the head of the link. -/
theorem length_lt_of_ofAppLink (read : ofAppLink text flags = .ok back) :
    ∀ data ∈ back.data, data.chars.length < (appParts text.toList).1.length := by
  rcases parts : appParts text.toList with ⟨head, entries⟩
  rcases (ofAppLink_eq_ok_iff parts).1 read with
    ⟨app, package, data, described, parsed, named, someText, found, _, rfl⟩
  have given : ({ described with data }.withPackage package).data = data := by
    rw [withPackage]
    split
    · rfl
    · rfl
  rw [given]
  rintro data rfl
  have characters := eq_of_readData? found
  have whole : head = app.chars := by
    have text := Uri.text_of_parse parsed
    rw [Uri.text, String.ofList_inj] at text
    exact text.symm
  -- The package and its slashes are longer than the colon and the slashes that take their place.
  have body : app.path.toList.length + (Uri.marked ['?'] app.query).length + 3 ≤
      app.chars.length := by
    have somePackage : package.toList ≠ [] := by simpa using someText
    have package_pos := List.length_pos_of_ne_nil somePackage
    rcases app with ⟨scheme, body, fragment⟩
    cases body with
    | specific body => cases named
    | hierarchical authority path query =>
        cases named
        simp only [Uri.chars, Uri.Body.chars, Uri.marked, Uri.path, Uri.query, List.length_append,
          List.length_cons, List.length_nil]
        omega
  by_cases empty : firstSegment app.path.toList = []
  · simp [segmentText?_of_empty empty] at characters
  · rcases segmentText?_of_some empty with ⟨more, segments, _, bound⟩
    rw [segments, Option.some.injEq] at characters
    simp only [whole, ← characters, List.length_append, List.length_cons]
    omega

end IntentRouting.Intent
