import IntentRouting.Permission.History
import IntentRouting.Proofs.Text.Lenient
import Mathlib.Data.List.Forall2

/-!
# What lies beneath a URI

Paths are compared by the bytes of their segments, as far as these bytes are UTF-8. Bytes that are
not are read leniently before they are compared, so segments that differ only in them are the same
segment (`IsSameSegment`), and a grant for everything beneath a URI reaches from the one to the
other.
-/

namespace IntentRouting

open Text.Utf8

namespace Uri

/-- The bytes that the segments of a path stand for, without the empty segments. -/
def segmentBytes (uri : Uri) : List (List UInt8) := (rawSegments uri.path.toList).map decodeBytes

/-- Segments that are the same where paths are compared. -/
inductive IsSameSegment : List UInt8 → List UInt8 → Prop where
  | equal {bytes : List UInt8} : IsSameSegment bytes bytes
  | faulty {left right : List UInt8} (notUtf8 : ¬ (IsUtf8 left ∧ IsUtf8 right))
      (alike : ReadAlike left right) : IsSameSegment left right

/-- That a URI lies beneath another, or is another spelling of it. -/
structure IsWithin (uri ancestor : Uri) : Prop where
  scheme : uri.scheme = ancestor.scheme
  authority : uri.authority = ancestor.authority
  segments : ∃ leading, leading <+: uri.segmentBytes ∧
    List.Forall₂ IsSameSegment ancestor.segmentBytes leading

variable {left right : List UInt8}

theorem isSameSegment_iff : IsSameSegment left right ↔ ReadAlike left right := by
  constructor
  · intro same
    cases same with
    | equal => exact readAlike_iff.2 rfl
    | faulty _ alike => exact alike
  · intro alike
    by_cases utf8 : IsUtf8 left ∧ IsUtf8 right
    · rw [alike.eq_of_isUtf8 utf8.1 utf8.2]
      exact .equal
    · exact .faulty utf8 alike

theorem segments_eq_map_segmentBytes (uri : Uri) : uri.segments =
    uri.segmentBytes.map fun bytes => String.ofList (Text.Utf8.decodeLossy bytes) := by
  rw [segmentBytes, List.map_map]
  rfl

theorem forall₂_isSameSegment_iff {lefts rights : List (List UInt8)} :
    List.Forall₂ IsSameSegment lefts rights ↔
      lefts.map (fun bytes => String.ofList (Text.Utf8.decodeLossy bytes)) =
        rights.map (fun bytes => String.ofList (Text.Utf8.decodeLossy bytes)) := by
  have same : IsSameSegment = fun left right =>
      String.ofList (Text.Utf8.decodeLossy left) = String.ofList (Text.Utf8.decodeLossy right) := by
    funext left right
    rw [isSameSegment_iff, readAlike_iff, String.ofList_inj]
  rw [same, ← List.forall₂_eq_eq_eq, List.forall₂_map_left_iff, List.forall₂_map_right_iff]

/-- The URIs beneath another are those within it. -/
theorem isBeneath_iff_isWithin {uri ancestor : Uri} :
    uri.isBeneath ancestor = true ↔ uri.IsWithin ancestor := by
  rw [isBeneath_iff, segments_eq_map_segmentBytes, segments_eq_map_segmentBytes,
    List.prefix_map_iff]
  constructor
  · rintro ⟨scheme, authority, leading, isPrefix, same⟩
    exact ⟨scheme, authority, leading, isPrefix, forall₂_isSameSegment_iff.2 same⟩
  · rintro ⟨scheme, authority, leading, isPrefix, same⟩
    exact ⟨scheme, authority, leading, isPrefix, forall₂_isSameSegment_iff.1 same⟩

/-- One URI is beneath another exactly if it is within it, and a grant for everything beneath a URI
covers exactly what is within it. -/
theorem isWithin_decides_scope (uri ancestor : Uri) :
    (uri.isBeneath ancestor = true ↔ uri.IsWithin ancestor) ∧
      ∀ grant : Grant, grant.beneath = true → grant.uri = ancestor →
        (grant.covers uri = true ↔ uri.IsWithin ancestor) := by
  refine ⟨isBeneath_iff_isWithin, ?_⟩
  rintro grant beneath rfl
  rw [Grant.covers, if_pos beneath, isBeneath_iff_isWithin]

end Uri

namespace Notes

/-- A URI of the notes with some path. -/
def page (path : String) : Uri :=
  ⟨some Uri.contentScheme, .hierarchical (some "notes") path none, none⟩

/-- Access of the viewer to everything beneath a page. -/
def accessBeneath (path : String) : Grant :=
  .ofKey ⟨viewer.uid, page path, true⟩ owner.uid (moment 0)

/-- What lies beneath a page may be spelled with more slashes and with other escapes. -/
theorem access_beneath_other_spelling :
    (accessBeneath "/caf%c3%a9").covers (page "//c%61f%C3%A9/1") = true := by
  have within : (page "//c%61f%C3%A9/1").IsWithin (page "/caf%c3%a9") :=
    ⟨rfl, rfl, [[99, 97, 102, 0xc3, 0xa9]], by decide +kernel, .cons .equal .nil⟩
  exact ((Uri.isWithin_decides_scope (page "//c%61f%C3%A9/1") (page "/caf%c3%a9")).2
    (accessBeneath "/caf%c3%a9") rfl rfl).2 within

/-- The bytes `ff` and `fe`, neither of which is UTF-8, are the same segment. -/
theorem access_beneath_other_bytes :
    Uri.parse "content://notes/%FE" = .ok (page "/%FE") ∧
      Uri.parse "content://notes/%FF/1" = .ok (page "/%FF/1") ∧
      ¬ (page "/%FE").segmentBytes <+: (page "/%FF/1").segmentBytes ∧
      (page "/%FF/1").isBeneath (page "/%FE") = true ∧
      (accessBeneath "/%FE").covers (page "/%FF/1") = true := by
  have alike : ReadAlike [0xfe] [0xff] := by
    rw [readAlike_iff, decodeLossy, decodeLossy]
    rfl
  have beneath : (page "/%FF/1").isBeneath (page "/%FE") = true :=
    Uri.isBeneath_iff_isWithin.2
      ⟨rfl, rfl, [[0xff]], by decide +kernel, .cons (Uri.isSameSegment_iff.2 alike) .nil⟩
  exact ⟨rfl, rfl, by decide +kernel, beneath, beneath⟩

end Notes

end IntentRouting
