import IntentRouting.Permission.Grant
import IntentRouting.Proofs.Uri.Acceptance
import IntentRouting.Proofs.Uri.Beneath
import Mathlib.Data.List.DropRight

/-!
# Appended segments

A segment is escaped and put behind the path, and the text composed in this way is read again.
Nothing in an escaped segment divides a URI, and slashes at the end of the path are not doubled, so
the parts are in order again (`HasValidParts.under`) and reading only gives them back. This holds
for URIs without structure, too, which have an empty path.

What one segment adds is what any number of them add (`Extends.trans`), and everything that is
reached in this way lies beneath the URI it was reached from.
-/

namespace IntentRouting

namespace Uri

variable {uri middle longer : Uri} {path characters : List Char} {segment : String}
  {names more : List String}

/-- That a URI goes on from another by the given segments. Only the spelling of the path in front of
them may differ, and a fragment is lost with the first of them. -/
structure Extends (longer uri : Uri) (names : List String) : Prop where
  scheme : longer.scheme = uri.scheme
  authority : longer.authority = uri.authority
  query : longer.query = uri.query
  fragment : longer.fragment = if names = [] then uri.fragment else none
  segments : longer.segments = uri.segments ++ names

section Slashes

theorem withoutFinalSlashes_leads (path : List Char) : withoutFinalSlashes path <+: path :=
  List.rdropWhile_prefix (· = '/') path

theorem getLast_withoutFinalSlashes (someText : withoutFinalSlashes path ≠ []) :
    (withoutFinalSlashes path).getLast someText ≠ '/' := by
  have last := List.rdropWhile_last_not (· = '/') path someText
  simpa [withoutFinalSlashes, List.rdropWhile] using last

theorem head?_withoutFinalSlashes (rooted : path = [] ∨ path.head? = some '/') :
    (withoutFinalSlashes path ++ '/' :: characters).head? = some '/' := by
  rcases withoutFinalSlashes_leads path with ⟨slashes, whole⟩
  cases trimmed : withoutFinalSlashes path with
  | nil => rfl
  | cons first rest =>
      rw [trimmed] at whole
      simpa [← whole] using rooted

/-- A path that does not begin with two slashes does not come to by going on. -/
theorem not_slashes_lead (noSlashes : ¬ ['/', '/'] <+: path) (noSlash : '/' ∉ characters) :
    ¬ ['/', '/'] <+: withoutFinalSlashes path ++ '/' :: characters := by
  intro doubled
  have leads := withoutFinalSlashes_leads path
  have last (someText : withoutFinalSlashes path ≠ []) := getLast_withoutFinalSlashes someText
  generalize withoutFinalSlashes path = trimmed at doubled leads last
  -- the two slashes are the new one and the first of the characters, or they stand in the path
  rcases trimmed with _ | ⟨first, _ | ⟨second, rest⟩⟩
  · apply noSlash
    have next : ['/'] <+: characters := by
      simpa using doubled
    exact next.subset (List.mem_singleton_self '/')
  · apply last (by simp)
    simpa [eq_comm] using doubled
  · apply noSlashes
    apply List.IsPrefix.trans _ leads
    simpa using doubled

theorem takeWhile_slash_leads (left right rest : List Char) :
    (left ++ '/' :: right).takeWhile (· != '/') <+: (left ++ rest).takeWhile (· != '/') := by
  induction left with
  | nil => simp
  | cons first left ih =>
      by_cases slash : first = '/'
      · simp [slash]
      · simpa [slash] using ih

end Slashes

section Parts

/-- What holds of the authority, the path and the query of a URI, whether it has structure or not.
-/
structure HasPlainParts (uri : Uri) : Prop where
  authority : ∀ authority ∈ uri.authority,
    '/' ∉ authority.toList ∧ '?' ∉ authority.toList ∧ '#' ∉ authority.toList
  path : '?' ∉ uri.path.toList ∧ '#' ∉ uri.path.toList
  query : ∀ query ∈ uri.query, '#' ∉ query.toList
  noSlashes : uri.authority = none → ¬ ['/', '/'] <+: uri.path.toList
  /-- A path that follows a scheme or an authority begins with a slash. -/
  rooted : uri.scheme.isSome = true ∨ uri.authority ≠ none →
    uri.path.toList = [] ∨ uri.path.toList.head? = some '/'

theorem HasValidParts.plain (valid : uri.HasValidParts) : uri.HasPlainParts := by
  have readable := valid.body
  rcases uri with ⟨scheme, body, fragment⟩
  cases body with
  | specific text => constructor <;> simp [Uri.authority, Uri.path, Uri.query]
  | hierarchical authority path query =>
      rcases readable with ⟨inAuthority, noSlashes, leads, noQuery, noMark, inQuery⟩
      refine ⟨?_, ⟨noQuery, noMark⟩, inQuery, noSlashes, ?_⟩
      · intro authority' given
        rcases inAuthority authority' given with ⟨noSlash, noQuery', noMark', _⟩
        exact ⟨noSlash, noQuery', noMark'⟩
      · intro follows
        cases authority with
        | none =>
            right
            apply leads rfl
            simpa [Uri.authority] using follows
        | some authority => exact (inAuthority authority rfl).2.2.2

theorem HasPlainParts.isReadable_under (plain : uri.HasPlainParts) (segment : String) :
    (uri.under segment).body.IsReadable uri.scheme.isSome := by
  have noSlash : '/' ∉ encodeChars segment.toList := notMem_encodeChars (by decide) (by decide)
  have absent (c : Char) (reserved : isUnreserved c = false) (other : c ≠ '%' ∧ c ≠ '/')
      (notInPath : c ∉ uri.path.toList) :
      c ∉ withoutFinalSlashes uri.path.toList ++ '/' :: encodeChars segment.toList := by
    have notLeading : c ∉ withoutFinalSlashes uri.path.toList :=
      fun member => notInPath ((withoutFinalSlashes_leads _).subset member)
    have notInSegment : c ∉ encodeChars segment.toList := notMem_encodeChars reserved other.1
    simp [notLeading, notInSegment, other.2]
  simp only [under, Body.IsReadable, String.toList_ofList]
  refine ⟨?_, ?_, ?_, ?_, ?_, plain.query⟩
  · intro authority given
    rcases plain.authority authority given with ⟨noSlash', noQuery, noMark⟩
    refine ⟨noSlash', noQuery, noMark, .inr ?_⟩
    apply head?_withoutFinalSlashes
    apply plain.rooted
    simp_all
  · intro noAuthority
    exact not_slashes_lead (plain.noSlashes noAuthority) noSlash
  · intro _ schemed
    apply head?_withoutFinalSlashes
    exact plain.rooted (.inl schemed)
  · exact absent '?' (by decide) (by decide) plain.path.1
  · exact absent '#' (by decide) (by decide) plain.path.2

theorem mem_chars_under {c : Char} (written : c ∈ (uri.under segment).chars) :
    c ∈ uri.chars ∨ c = '/' ∨ c ∈ encodeChars segment.toList := by
  have ofBody (member : c ∈ uri.body.chars) : c ∈ uri.chars := by
    simp [chars, member]
  have noFragment : marked ['#'] none = [] := rfl
  simp only [under, chars, Body.chars, noFragment, String.toList_ofList, List.append_nil,
    List.mem_append, List.mem_cons] at written
  rcases written with inScheme | (inAuthority | inPath | slash) | inQuery
  · left
    simp [chars, inScheme]
  · exact .inl (ofBody (mem_body_of_authority inAuthority))
  · exact .inl (ofBody (mem_body_of_path ((withoutFinalSlashes_leads _).subset inPath)))
  · exact .inr slash
  · exact .inl (ofBody (mem_body_of_query inQuery))

/-- The parts of a URI are in order again behind another segment. -/
theorem HasValidParts.under (valid : uri.HasValidParts) (segment : String) :
    (uri.under segment).HasValidParts := by
  refine ⟨valid.scheme, valid.plain.isReadable_under segment, ?_, ?_, ?_⟩
  · intro noScheme noAuthority colon
    rcases withoutFinalSlashes_leads uri.path.toList with ⟨slashes, whole⟩
    apply valid.noColon noScheme noAuthority
    rw [← whole]
    apply (takeWhile_slash_leads _ (encodeChars segment.toList) slashes).subset
    simpa [Uri.under, Uri.path] using colon
  · intro c written
    rcases mem_chars_under written with shorter | rfl | inSegment
    · exact valid.allowed c shorter
    · rfl
    · exact isForbidden_of_mem_encodeChars inSegment
  · simp [Uri.under, ← String.toList_inj]

theorem IsRead.under (read : uri.IsRead) (segment : String) : (uri.under segment).IsRead :=
  (read.hasValidParts.under segment).isRead

theorem IsRead.append (read : uri.IsRead) (segment : String) :
    uri.append segment = .ok (uri.under segment) :=
  (read.under segment).parse_text

end Parts

section Extending

theorem Extends.trans (upper : middle.Extends uri names) (lower : longer.Extends middle more) :
    longer.Extends uri (names ++ more) := by
  constructor
  · exact lower.scheme.trans upper.scheme
  · exact lower.authority.trans upper.authority
  · exact lower.query.trans upper.query
  · rw [lower.fragment, upper.fragment]
    cases more <;> simp
  · rw [lower.segments, upper.segments, List.append_assoc]

theorem extends_under (named : segment ≠ "") : (uri.under segment).Extends uri [segment] :=
  ⟨rfl, rfl, rfl, rfl, segments_under_of_ne named⟩

theorem Extends.isBeneath (goesOn : longer.Extends uri names) : longer.isBeneath uri = true := by
  apply isBeneath_iff.2
  refine ⟨goesOn.scheme, goesOn.authority, ?_⟩
  simp [goesOn.segments]

/-- Segments are appended one after the other, and each time the URI is read again. -/
theorem IsRead.exists_append (read : uri.IsRead) (named : ∀ name ∈ names, name ≠ "") :
    ∃ longer, names.foldlM Uri.append uri = .ok longer ∧ longer.Extends uri names := by
  induction names generalizing uri with
  | nil => exact ⟨uri, rfl, ⟨rfl, rfl, rfl, rfl, by simp⟩⟩
  | cons name names ih =>
      rw [List.forall_mem_cons] at named
      rcases ih (read.under name) named.2 with ⟨longer, appended, goesOn⟩
      refine ⟨longer, ?_, (extends_under named.1).trans goesOn⟩
      rw [List.foldlM_cons, read.append]
      exact appended

theorem covers_of_isBeneath {grant : Grant} (extended : grant.beneath = true)
    (beneath : uri.isBeneath grant.uri = true) : grant.covers uri = true := by
  simp [Grant.covers, extended, beneath]

/-- Segments can be appended to every URI. What comes of it goes on from the URI by exactly these
segments and lies beneath it. Lying beneath is reflexive and transitive, so a grant for everything
beneath the URI reaches the longer one, and all that a grant beneath the longer one reaches. -/
theorem appended_stays_beneath (read : uri.IsRead) (named : ∀ name ∈ names, name ≠ "") :
    (∃ longer, names.foldlM append uri = .ok longer ∧ longer.Extends uri names ∧
      longer.isBeneath uri = true ∧
      ∀ grant : Grant, grant.beneath = true → grant.uri = uri →
        grant.covers longer = true ∧
          ∀ lower : Grant, lower.beneath = true → lower.uri = longer →
            ∀ target, lower.covers target = true → grant.covers target = true) ∧
    (∀ uri : Uri, uri.isBeneath uri = true) ∧
    ∀ uri middle ancestor : Uri, uri.isBeneath middle = true →
      middle.isBeneath ancestor = true → uri.isBeneath ancestor = true := by
  refine ⟨?_, fun _ => isBeneath_self, fun _ _ _ lower upper => isBeneath_trans lower upper⟩
  rcases read.exists_append named with ⟨longer, appended, goesOn⟩
  refine ⟨longer, appended, goesOn, goesOn.isBeneath, ?_⟩
  rintro grant extended rfl
  refine ⟨covers_of_isBeneath extended goesOn.isBeneath, ?_⟩
  rintro lower lowerExtended rfl target reached
  apply covers_of_isBeneath extended
  have beneath : target.isBeneath lower.uri = true := by
    simpa [Grant.covers, lowerExtended] using reached
  exact isBeneath_trans beneath goesOn.isBeneath

end Extending

end Uri

namespace Notes

/-- A search beneath a note, shown from its top. -/
def search : Uri :=
  ⟨some Uri.contentScheme, .hierarchical (some "notes") "/1//" (some "limit=5"), some "top"⟩

/-- Neither the slash nor the percent sign of a segment divides the longer URI. -/
theorem search_goes_on : search.IsRead ∧ (∀ name ∈ ["a/b", "50%"], name ≠ "") ∧
    ∃ longer, ["a/b", "50%"].foldlM Uri.append search = .ok longer ∧
      longer.text = "content://notes/1/a%2Fb/50%25?limit=5" ∧
      longer.segments = search.segments ++ ["a/b", "50%"] ∧ longer.fragment = none ∧
      longer.isBeneath search = true := by
  have read : search.IsRead := ⟨"content://notes/1//?limit=5#top", rfl⟩
  have named : ∀ name ∈ ["a/b", "50%"], name ≠ "" := by
    decide
  rcases (Uri.appended_stays_beneath read named).1 with ⟨longer, appended, goesOn, beneath, _⟩
  refine ⟨read, named, longer, appended, ?_, goesOn.segments, goesOn.fragment, beneath⟩
  cases appended
  rfl

end Notes

end IntentRouting
