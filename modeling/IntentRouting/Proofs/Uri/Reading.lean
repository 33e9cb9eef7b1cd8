import IntentRouting.Uri.Basic

/-!
# Reading a URI

Reading only takes a text apart, so composing the parts gives the text back
(`Uri.text_of_parse`). Whatever was read is therefore determined by its text, which is what URIs are
ordered by.
-/

namespace IntentRouting.Uri

theorem cut_append_marked (separator : Char) (characters : List Char) :
    (Text.cut separator characters).1 ++
      marked [separator] ((Text.cut separator characters).2.map String.ofList) = characters := by
  induction characters with
  | nil => rfl
  | cons c rest ih =>
      rw [Text.cut]
      split
      · rename_i same
        simp [marked, same]
      · rw [List.cons_append, ih]

theorem chars_readHierarchy (characters : List Char) (query : Option String) :
    (readHierarchy characters query).chars = characters ++ marked ['?'] query := by
  unfold readHierarchy
  split
  · rename_i rest
    have whole := List.takeWhile_append_dropWhile (p := (· != '/')) (l := rest)
    simp only [Body.chars, marked, String.toList_ofList, List.append_assoc, List.cons_append,
      List.nil_append]
    rw [← List.append_assoc, whole]
  · simp [Body.chars, marked]

theorem chars_readBody (afterScheme : Bool) (characters : List Char) :
    (readBody afterScheme characters).chars = characters := by
  rw [readBody]
  split
  · rw [Body.chars, String.toList_ofList]
  · rw [chars_readHierarchy]
    exact cut_append_marked '?' characters

theorem append_of_cutScheme? {characters scheme rest : List Char}
    (cut : cutScheme? characters = some (scheme, rest)) : scheme ++ ':' :: rest = characters := by
  simp only [cutScheme?] at cut
  split at cut
  · rename_i ends
    cases cut
    rw [← ends]
    exact List.takeWhile_append_dropWhile
  · cases cut

/-- A URI that was read is composed to the text that it was read from. -/
theorem text_of_parse {text : String} {uri : Uri} (read : parse text = .ok uri) :
    uri.text = text := by
  have whole := cut_append_marked '#' text.toList
  suffices composed : uri.chars = text.toList by
    rw [Uri.text, composed, String.ofList_toList]
  simp only [parse] at read
  split at read
  · cases read
  split at read
  · cases read
  split at read
  · rename_i scheme rest cut
    split at read
    · cases read
      rw [← append_of_cutScheme? cut] at whole
      simpa [chars, schemeChars, chars_readBody] using whole
    · cases read
  · cases read
    simpa [chars, schemeChars, chars_readBody] using whole

/-- A URI that was read from some text. -/
def IsRead (uri : Uri) : Prop := ∃ text, parse text = .ok uri

/-- URIs that were read are told apart by their texts. -/
theorem IsRead.eq_of_text_eq {left right : Uri} (leftRead : left.IsRead) (rightRead : right.IsRead)
    (same : left.text = right.text) : left = right := by
  rcases leftRead with ⟨leftText, leftParsed⟩
  rcases rightRead with ⟨rightText, rightParsed⟩
  have texts : leftText = rightText := by
    rw [← text_of_parse leftParsed, ← text_of_parse rightParsed, same]
  rw [texts, rightParsed] at leftParsed
  cases leftParsed
  rfl

end IntentRouting.Uri
