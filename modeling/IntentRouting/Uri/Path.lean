import IntentRouting.Uri.Basic

/-!
# Paths

A path is a list of segments between slashes; empty segments do not count, and escapes are undone,
so two spellings of a path have equal segments. One URI lies beneath another if both have the same
scheme and authority and the segments of the one begin with those of the other.
-/

namespace IntentRouting.Uri

/-- The segments of a path that are not empty, with their escapes. -/
def rawSegments (path : List Char) : List (List Char) :=
  (Text.split '/' path).filter (!·.isEmpty)

/-- The segments of the path of a URI. -/
def segments (uri : Uri) : List String := (rawSegments uri.path.toList).map decodeLossy

/-- Whether a URI has the scheme and authority of another, and a path that begins with its path. -/
def isBeneath (uri ancestor : Uri) : Bool :=
  uri.scheme = ancestor.scheme && uri.authority = ancestor.authority &&
    ancestor.segments.isPrefixOf uri.segments

section Beneath

variable {uri middle ancestor : Uri}

theorem isBeneath_iff : uri.isBeneath ancestor = true ↔
    uri.scheme = ancestor.scheme ∧ uri.authority = ancestor.authority ∧
      ancestor.segments <+: uri.segments := by
  simp [isBeneath, and_assoc]

@[simp]
theorem isBeneath_self : uri.isBeneath uri = true := by simp [isBeneath_iff]

theorem isBeneath_trans (lower : uri.isBeneath middle = true)
    (upper : middle.isBeneath ancestor = true) :
    uri.isBeneath ancestor = true := by
  rw [isBeneath_iff] at lower upper ⊢
  rcases lower with ⟨scheme, authority, leading⟩
  rcases upper with ⟨scheme', authority', leading'⟩
  exact ⟨scheme.trans scheme', authority.trans authority', leading'.trans leading⟩

theorem isContent_of_isBeneath (beneath : uri.isBeneath ancestor = true) :
    uri.isContent = ancestor.isContent := by
  rw [isContent, isContent, (isBeneath_iff.1 beneath).1]

end Beneath

/-- Characters without the slashes at the end. -/
def withoutFinalSlashes (characters : List Char) : List Char :=
  (characters.reverse.dropWhile (· = '/')).reverse

theorem rawSegments_append_slash {left right : List Char} :
    rawSegments (left ++ '/' :: right) = rawSegments left ++ rawSegments right := by
  rw [rawSegments, Text.split_append_separator, List.filter_append]
  rfl

@[simp]
theorem rawSegments_withoutFinalSlashes {path : List Char} :
    rawSegments (withoutFinalSlashes path) = rawSegments path := by
  suffices dropped : ∀ backwards : List Char,
      rawSegments (backwards.dropWhile (· = '/')).reverse = rawSegments backwards.reverse by
    simpa [withoutFinalSlashes] using dropped path.reverse
  intro backwards
  induction backwards with
  | nil => rfl
  | cons c backwards ih =>
      by_cases slash : c = '/'
      · have nothing : rawSegments [] = [] := rfl
        rw [List.reverse_cons, slash, rawSegments_append_slash, nothing, List.append_nil, ← ih]
        simp
      · simp [slash]

/-- The URI with one more segment, which is escaped; the query stays and the fragment goes. -/
def under (uri : Uri) (segment : String) : Uri :=
  ⟨uri.scheme, .hierarchical uri.authority
    (String.ofList (withoutFinalSlashes uri.path.toList ++
    '/' :: encodeChars segment.toList)) uri.query, none⟩

theorem segments_under (uri : Uri) (segment : String) : (uri.under segment).segments =
    uri.segments ++ (rawSegments (encodeChars segment.toList)).map decodeLossy := by
  have trimmed : rawSegments (withoutFinalSlashes uri.path.toList) = rawSegments uri.path.toList :=
    rawSegments_withoutFinalSlashes
  rw [segments, segments, ← List.map_append, ← trimmed, ← rawSegments_append_slash, under, path,
    String.toList_ofList]

@[simp]
theorem isBeneath_under {uri : Uri} {segment : String} :
    (uri.under segment).isBeneath uri = true := by
  rw [isBeneath_iff, segments_under]
  exact ⟨rfl, rfl, List.prefix_append _ _⟩

def append (uri : Uri) (segment : String) : Except Malformed Uri :=
  parse (uri.under segment).text

end IntentRouting.Uri
